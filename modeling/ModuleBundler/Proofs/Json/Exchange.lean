import ModuleBundler.Asset.Unit
import ModuleBundler.LiveUpdate.Message
import ModuleBundler.Options.Settings
import ModuleBundler.Package.Metadata
import ModuleBundler.Proofs.Json.Codecs

/-!
# What is exchanged as JSON

Compiled units and their dependencies, requests, package metadata and live
update messages come back from their texts.

Main results:

- Theorem {lit}`parse_render_of_exchanged`: every record and message that is exchanged comes back from
  its text, except for the place of a package's manifest.
-/

namespace ModuleBundler

open Json (Codec Record)

variable {depth : Nat}

theorem Path.keeps (path : Path) : Path.codec.Keeps depth path :=
  Codec.keeps_iso rfl (Codec.keeps_text _ _)

theorem Kind.keeps (kind : Kind) : Kind.codec.Keeps depth kind :=
  Codec.keeps_iso rfl (Codec.keeps_text _ _)

/-! ## Compiled units -/

/-- Whether the line and the column fit 64 bits. -/
def Location.InRange (place : Location) : Prop :=
  place.line ≤ maxCount ∧ place.column ≤ maxCount

theorem Location.keeps {place : Location} (h : place.InRange) :
    Location.record.codec.Keeps (depth + 1) place := by
  have hfields : ∀ field ∈ Location.record.fields, field.codec.Keeps depth (field.get place) := by
    simp only [Location.record, List.forall_mem_cons]
    exact ⟨Codec.keeps_natural h.1 (by decide) _, Codec.keeps_natural h.2 (by decide) _, nofun⟩
  exact Record.carries (by decide) hfields

/-- Whether the place of the import, if there is one, fits 64 bits. -/
def Dependency.InRange (dep : Dependency) : Prop :=
  ∀ place ∈ dep.place, place.InRange

theorem Dependency.keeps {dep : Dependency} (h : dep.InRange) :
    Dependency.record.codec.Keeps (depth + 2) dep := by
  have hfields : ∀ field ∈ Dependency.record.fields, field.codec.Keeps (depth + 1) (field.get dep) := by
    simp only [Dependency.record, List.forall_mem_cons]
    refine ⟨Codec.keeps_text _ _, Codec.keeps_flag _, Codec.keeps_flag _,
      Codec.keeps_optional nofun ?_, Codec.keeps_optional nofun fun _ _ => Codec.keeps_text _ _, nofun⟩
    exact fun place hplace => Location.keeps (h place hplace)
  exact Record.carries (by decide) hfields

theorem CompiledUnit.keeps {unit : CompiledUnit} (h : ∀ dep ∈ unit.dependencies, dep.InRange) :
    CompiledUnit.record.codec.Keeps (depth + 4) unit := by
  have hfields : ∀ field ∈ CompiledUnit.record.fields, field.codec.Keeps (depth + 3) (field.get unit) := by
    simp only [CompiledUnit.record, List.forall_mem_cons]
    refine ⟨Codec.keeps_tableOf fun _ _ => Codec.keeps_text _ _, Codec.keeps_text _ _,
      Codec.keeps_list ?_, nofun⟩
    exact fun dep hdep => Dependency.keeps (h dep hdep)
  exact Record.carries (by decide) hfields

/-! ## Requests and packages -/

/-- Whether the log level, if there is one, fits its byte. -/
def Request.InRange (request : Request) : Prop :=
  ∀ level ∈ request.logLevel, level ≤ Request.maxLogLevel

theorem Request.keeps {request : Request} (h : request.InRange) :
    Request.record.codec.Keeps (depth + 1) request := by
  have hfields : ∀ field ∈ Request.record.fields, field.codec.Keeps depth (field.get request) := by
    have hpath (path : Option Path) : Path.codec.optional.Keeps depth path :=
      Codec.keeps_optional nofun fun path _ => Path.keeps path
    have hflag (b : Option Bool) : Codec.flag.optional.Keeps depth b :=
      Codec.keeps_optional nofun fun b _ => Codec.keeps_flag b
    simp only [Request.record, List.forall_mem_cons]
    refine ⟨hpath _, Codec.keeps_optional nofun fun _ _ => Codec.keeps_text _ _, hflag _, hflag _, hpath _,
      hflag _, hflag _, hflag _, Codec.keeps_optional nofun ?_, hflag _, nofun⟩
    exact fun level hlevel => Codec.keeps_natural (h level hlevel) (by decide) _
  exact Record.carries (by decide) hfields

/-- The manifest of a package is not written. -/
theorem Package.carries (package : Package) :
    Package.record.codec.Carries (depth + 1) package { package with manifest := none } := by
  have hfields : ∀ field ∈ Package.record.fields, field.codec.Keeps depth (field.get package) := by
    have htext (text : Option String) : (Codec.text "a string").optional.Keeps depth text :=
      Codec.keeps_optional nofun fun text _ => Codec.keeps_text _ text
    simp only [Package.record, List.forall_mem_cons]
    exact ⟨htext _, htext _, htext _, htext _, nofun⟩
  exact Record.carries (by decide) hfields

/-! ## Live update messages -/

namespace LiveUpdate

theorem UpdatedAsset.keeps (asset : UpdatedAsset) : UpdatedAsset.record.codec.Keeps (depth + 2) asset := by
  have hfields : ∀ field ∈ UpdatedAsset.record.fields, field.codec.Keeps (depth + 1) (field.get asset) := by
    simp only [UpdatedAsset.record, List.forall_mem_cons]
    exact ⟨Path.keeps _, Kind.keeps _, Codec.keeps_tableOf fun _ _ => Codec.keeps_text _ _,
      Codec.keeps_tableOf fun _ _ => Path.keeps _, nofun⟩
  exact Record.carries (by decide) hfields

theorem Alert.keeps (alert : Alert) : Alert.record.codec.Keeps (depth + 1) alert := by
  have hfields : ∀ field ∈ Alert.record.fields, field.codec.Keeps depth (field.get alert) := by
    simp only [Alert.record, List.forall_mem_cons]
    exact ⟨Codec.keeps_text _ _, Codec.keeps_optional nofun fun path _ => Path.keeps path,
      Codec.keeps_optional nofun fun _ _ => Codec.keeps_text _ _, nofun⟩
  exact Record.carries (by decide) hfields

namespace Message

theorem keeps_update (assets : List UpdatedAsset) : updateRecord.codec.Keeps (depth + 4) assets := by
  have hfields : ∀ field ∈ updateRecord.fields, field.codec.Keeps (depth + 3) (field.get assets) := by
    simp only [updateRecord, List.forall_mem_cons]
    exact ⟨Codec.keeps_list fun asset _ => UpdatedAsset.keeps asset, nofun⟩
  exact Record.carries (by decide) hfields

/-- A message comes back from its text. -/
theorem parse_render (message : Message) : union.parse (union.render message) = .ok message := by
  cases message with
  | update assets => exact Json.Union.parse_render rfl (by rfl) (by decide) (keeps_update assets)
  | error alert => exact Json.Union.parse_render rfl (by rfl) (by decide) (Alert.keeps alert)

end Message
end LiveUpdate

/-! ## Everything that is exchanged -/

/-- Whatever is exchanged comes back from its text; only where a package's manifest lies is lost. -/
theorem parse_render_of_exchanged :
    (∀ dep : Dependency, dep.InRange →
      Dependency.record.codec.parse (Dependency.record.codec.render dep) = .ok dep) ∧
    (∀ unit : CompiledUnit, (∀ dep ∈ unit.dependencies, dep.InRange) →
      CompiledUnit.record.codec.parse (CompiledUnit.record.codec.render unit) = .ok unit) ∧
    (∀ request : Request, request.InRange →
      Request.record.codec.parse (Request.record.codec.render request) = .ok request) ∧
    (∀ message : LiveUpdate.Message,
      LiveUpdate.Message.union.parse (LiveUpdate.Message.union.render message) = .ok message) ∧
    ∀ package : Package,
      Package.record.codec.parse (Package.record.codec.render package) =
        .ok { package with manifest := none } := by
  refine ⟨fun dep h => ?_, fun unit h => ?_, fun request h => ?_, fun message => ?_, fun package => ?_⟩
  · have hkeeps : Dependency.record.codec.Keeps 2 dep := Dependency.keeps h
    exact hkeeps.parse_render
  · have hkeeps : CompiledUnit.record.codec.Keeps 4 unit := CompiledUnit.keeps h
    exact hkeeps.parse_render
  · have hkeeps : Request.record.codec.Keeps 1 request := Request.keeps h
    exact hkeeps.parse_render
  · exact message.parse_render
  · have hcarries : Package.record.codec.Carries 1 package { package with manifest := none } :=
      package.carries
    exact hcarries.parse_render

/-- An import with a quote, an accent, a line break and a control character, at the last line of all. -/
def Dependency.extreme : Dependency :=
  ⟨"./\"é\n\x01", true, false, some ⟨maxCount, 0⟩, some "print"⟩

theorem parse_render_of_extreme :
    Dependency.record.codec.parse (Dependency.record.codec.render .extreme) = .ok .extreme ∧
      CompiledUnit.record.codec.parse
          (CompiledUnit.record.codec.render ⟨.single "js" "\\", "", [.extreme]⟩) =
        .ok ⟨.single "js" "\\", "", [.extreme]⟩ ∧
      Request.record.codec.parse
          (Request.record.codec.render { outDir := some ⟨"out"⟩, logLevel := some 255 }) =
        .ok { outDir := some ⟨"out"⟩, logLevel := some 255 } := by
  have hdep : Dependency.extreme.InRange := by
    rintro _ ⟨⟩
    exact ⟨Nat.le_refl _, Nat.zero_le _⟩
  have hdeps : ∀ dep ∈ [Dependency.extreme], dep.InRange := by
    rintro _ (_ | ⟨_, ⟨⟩⟩)
    exact hdep
  have hrequest : Request.InRange { outDir := some ⟨"out"⟩, logLevel := some 255 } := by
    rintro _ ⟨⟩
    decide
  exact ⟨parse_render_of_exchanged.1 _ hdep, parse_render_of_exchanged.2.1 _ hdeps,
    parse_render_of_exchanged.2.2.1 _ hrequest⟩

end ModuleBundler

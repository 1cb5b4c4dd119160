import ModuleBundler.Proofs.Build.Answering

/-!
# Steady tools

Tools are steady when what they answer depends only on the texts of the files:
the resolver always gives the same answer, the compiler looks at nothing but the
text of the file, nothing is cached, nothing is implied or put into other files,
no changes are reported during a pass, and what is written is written.  With
steady tools the steps of a build have results that can be told in advance.

Main results:

- Theorem {lit}`Steady.answering`: as long as no text changes, the answers of steady tools are settled.
-/

namespace ModuleBundler
namespace Build

variable {κ π σ τ : Type}

/-- What the results of tools depend on besides the texts of the files. -/
structure Rules (κ τ : Type) where
  /-- The module that a specifier means in an importing file. -/
  find : String → Option Path → Except Failure Lookup.Modules.Resolved
  /-- What comes of the text of a file. -/
  translate : κ → Path → Package → τ → Except Failure CompiledUnit
  /-- Whether a directory can be made. -/
  prepared : Path → Except Failure Unit

/-- Whether tools depend only on the texts of the files. -/
structure Steady (tools : Toolset κ π σ) (text : σ → Path → τ) (rules : Rules κ τ) : Prop where
  resolve : ∀ specifier importer world,
    (tools.resolve specifier importer world).1.result = rules.find specifier importer ∧
      text (tools.resolve specifier importer world).2 = text world
  compile : ∀ compiler p package world,
    (tools.compile compiler p package world).1 = rules.translate compiler p package (text world p) ∧
      text (tools.compile compiler p package world).2 = text world
  /-- No file is put into another one. -/
  separate : ∀ {compiler p package content unit},
    rules.translate compiler p package content = .ok unit → ∀ dep ∈ unit.dependencies, dep.inlined = false
  implied : ∀ p kind world, (tools.implied p kind world).1 = .ok [] ∧
    text (tools.implied p kind world).2 = text world
  arrivals : ∀ world, (tools.arrivals world).1 = [] ∧ text (tools.arrivals world).2 = text world
  retrieve : ∀ p world, (tools.retrieve p world).1 = none ∧ text (tools.retrieve p world).2 = text world
  prepare : ∀ p world, (tools.prepare p world).1 = rules.prepared p ∧
    text (tools.prepare p world).2 = text world
  write : ∀ packager bundle world, (tools.write packager bundle world).1 = .ok () ∧
    text (tools.write packager bundle world).2 = text world
  remember : ∀ p unit inlined world, text (tools.remember p unit inlined world) = text world
  forget : ∀ p world, text (tools.forget p world) = text world
  watch : ∀ p world, text (tools.watch p world).2 = text world
  unwatch : ∀ p world, text (tools.unwatch p world) = text world
  update : ∀ assets world, text (tools.update assets world) = text world
  alert : ∀ failure world, text (tools.alert failure world) = text world
  close : ∀ world, text (tools.close world) = text world

/-- Tools that do what rules say, and nothing besides. -/
def Toolset.ofRules (rules : Rules Unit τ) (text : σ → Path → τ) : Toolset Unit Unit σ where
  resolve specifier importer world := (⟨rules.find specifier importer, []⟩, world)
  compile compiler p package world := (rules.translate compiler p package (text world p), world)
  implied _ _ world := (.ok [], world)
  arrivals world := ([], world)
  source _ _ := none
  retrieve _ world := (none, world)
  remember _ _ _ world := world
  forget _ world := world
  watch _ world := (.ok (), world)
  unwatch _ world := world
  prepare p world := (rules.prepared p, world)
  write _ _ world := (.ok (), world)
  writesOn := true
  update _ world := world
  alert _ world := world
  close world := world
  watches := true
  reach _ := 0

/-- Tools that do what rules say are steady. -/
theorem steady_ofRules {rules : Rules Unit τ} (text : σ → Path → τ)
    (hseparate : ∀ {compiler p package content unit},
      rules.translate compiler p package content = .ok unit → ∀ dep ∈ unit.dependencies, dep.inlined = false) :
    Steady (Toolset.ofRules rules text) text rules where
  resolve _ _ _ := ⟨rfl, rfl⟩
  compile _ _ _ _ := ⟨rfl, rfl⟩
  separate h := hseparate h
  implied _ _ _ := ⟨rfl, rfl⟩
  arrivals _ := ⟨rfl, rfl⟩
  retrieve _ _ := ⟨rfl, rfl⟩
  prepare _ _ := ⟨rfl, rfl⟩
  write _ _ _ := ⟨rfl, rfl⟩
  remember _ _ _ _ := rfl
  forget _ _ := rfl
  watch _ _ := rfl
  unwatch _ _ := rfl
  update _ _ := rfl
  alert _ _ := rfl
  close _ := rfl

/-- Whether two moments of a build differ neither in the state nor in the texts. -/
structure Work.Quiet (text : σ → Path → τ) (before after : Work σ) : Prop where
  state : after.state = before.state
  text : text after.world = text before.world

namespace Work.Quiet

variable {text : σ → Path → τ} {a b c : Work σ}

theorem refl (work : Work σ) : Work.Quiet text work work :=
  ⟨rfl, rfl⟩

theorem trans (hab : Work.Quiet text a b) (hbc : Work.Quiet text b c) : Work.Quiet text a c :=
  ⟨hbc.state.trans hab.state, hbc.text.trans hab.text⟩

end Work.Quiet

/-- What tools answer that depend on rules and texts. -/
def Rules.answers (rules : Rules κ τ) (texts : Path → τ) : Answers κ where
  find := rules.find
  translate compiler p package := rules.translate compiler p package (texts p)
  implied _ _ := .ok []
  prepared := rules.prepared

namespace Steady

variable {tools : Toolset κ π σ} {text : σ → Path → τ} {rules : Rules κ τ}
  (hsteady : Steady tools text rules)
include hsteady

/-- As long as no text changes, the answers of steady tools are settled. -/
theorem answering (texts : Path → τ) :
    Answering tools (fun world => text world = texts) (rules.answers texts) where
  resolve specifier importer world h :=
    ⟨(hsteady.resolve specifier importer world).1, (hsteady.resolve specifier importer world).2.trans h⟩
  compile compiler p package world h := by
    obtain ⟨hresult, htext⟩ := hsteady.compile compiler p package world
    refine ⟨?_, htext.trans h⟩
    rw [hresult, h]
    rfl
  implied p kind world h := ⟨(hsteady.implied p kind world).1, (hsteady.implied p kind world).2.trans h⟩
  arrivals world h := ⟨(hsteady.arrivals world).1, (hsteady.arrivals world).2.trans h⟩
  retrieve p world h := ⟨(hsteady.retrieve p world).1, (hsteady.retrieve p world).2.trans h⟩
  prepare p world h := ⟨(hsteady.prepare p world).1, (hsteady.prepare p world).2.trans h⟩
  write packager bundle world h :=
    ⟨(hsteady.write packager bundle world).1, (hsteady.write packager bundle world).2.trans h⟩
  remember p unit inlined world h := (hsteady.remember p unit inlined world).trans h
  forget p world h := (hsteady.forget p world).trans h
  watch p world h := (hsteady.watch p world).trans h
  update assets world h := (hsteady.update assets world).trans h

/-! ## Asking steady tools -/

/-- With steady tools there is nothing to be heard. -/
theorem listen (work : Work σ) : Work.Quiet text work (work.listen tools) := by
  have hstill := @Answering.listen _ _ _ _ _ _ (hsteady.answering (text work.world)) work rfl
  exact ⟨hstill.state, hstill.now⟩

theorem ask (work : Work σ) {world : σ} (htext : text world = text work.world) :
    Work.Quiet text work (({ work with world } : Work σ).listen tools) := by
  have hlisten := hsteady.listen { work with world }
  exact ⟨hlisten.state, hlisten.text.trans htext⟩

/-- No import of an asset puts a file into it. -/
theorem separate_of_leads {compiler : κ} {p importer : Path} {package : Package} {content : τ}
    {unit : CompiledUnit} (hunit : rules.translate compiler p package content = .ok unit)
    {modules : List (Dependency × Lookup.Modules.Resolved)}
    (hleads : Leads rules.find importer unit.dependencies modules) :
    ∀ link ∈ modules, link.1.inlined = false :=
  fun link hlink => hsteady.separate hunit link.1 (hleads.mem_dependencies hlink)

end Steady
end Build
end ModuleBundler

import ModuleBundler.Bundle.Packaging
import ModuleBundler.Proofs.Asset.Extension
import ModuleBundler.Source.Compile

/-!
# Two tables of kinds

What kind a file has is decided twice: the asset types say of which kind its asset is, and
the compiler says under which kind the output stands.  Both know the same extensions, and
both take an extension that they do not know as a kind of its own.  They part where there
is no extension to take: the asset of such a file is raw, but its output stands under the
empty kind, so a bundle of raw assets holds nothing of it.

Main results:

- Theorem {lit}`AssetTypes.kindOf_ofFallback`: the kind of an asset is that of the output, except for files
  without an extension.
- Theorem {lit}`Source.compileFile_kinds`: which kind the output of a file has, and what of it a bundle of
  the asset's kind is packaged from.
-/

namespace ModuleBundler

/-! ## Files without an extension -/

namespace Text

theorem lowerChar_ne_nil (c : Char) : lowerChar c ≠ [] := by
  unfold lowerChar
  split
  · exact List.cons_ne_nil _ _
  · split <;> exact List.cons_ne_nil _ _

/-- Only the empty text is empty in lower case. -/
theorem lowercase_eq_empty_iff {s : String} : lowercase s = "" ↔ s = "" := by
  unfold lowercase
  rw [String.ofList_eq_empty_iff, ← String.toList_eq_nil_iff]
  cases s.toList with
  | nil => exact Iff.rfl
  | cons c rest =>
    refine iff_of_false (fun h => ?_) (List.cons_ne_nil _ _)
    unfold lowerFrom at h
    have hhere := (List.append_eq_nil_iff.1 h).1
    split at hhere
    · split at hhere <;> cases hhere
    · exact lowerChar_ne_nil c hhere

end Text

/-- Whether a file name has something behind its last dot, and before it. -/
def Path.HasExtension (p : Path) : Prop :=
  ∃ extension, p.extension? = some extension ∧ extension ≠ ""

instance (p : Path) : Decidable p.HasExtension :=
  decidable_of_iff (p.extension?.any (· ≠ "") = true) (by
    cases h : p.extension? <;> simp [Path.HasExtension, h])

theorem Source.extensionOf_eq_empty_iff {p : Path} : extensionOf p = "" ↔ ¬ p.HasExtension := by
  unfold extensionOf Path.foldedExtension Path.HasExtension
  cases p.extension? with
  | none => simp
  | some extension => simp [Text.lowercase_eq_empty_iff]

/-! ## The tables -/

namespace Table

/-- A key of a list has a value in the table of the list. -/
theorem isSome_get?_ofList {α : Type} {entries : List (String × α)} {key : String} {value : α}
    (h : (key, value) ∈ entries) : ((ofList entries).get? key).isSome := by
  have hfold : ∀ (entries : List (String × α)) (table : Table α),
      (key, value) ∈ entries ∨ (table.get? key).isSome →
      ((entries.foldl (fun table entry => table.put entry.1 entry.2) table).get? key).isSome := by
    intro entries
    induction entries with
    | nil => exact fun table h => h.resolve_left List.not_mem_nil
    | cons head rest ih =>
      intro table h
      refine ih _ ?_
      by_cases hkey : key = head.1
      · rw [hkey, get?_put_self]
        exact .inr rfl
      · rw [get?_put_of_ne hkey]
        exact h.imp_left fun hmem => (List.mem_cons.1 hmem).resolve_left fun heq => hkey (congrArg Prod.fst heq)
  exact hfold entries empty (.inl h)

theorem get?_single {α : Type} (key other : String) (value : α) :
    (single key value).get? other = if other = key then some value else none := by
  by_cases h : other = key
  · simp [get?, single, h]
  · simp [get?, single, h, List.lookup_cons, beq_false_of_ne h]

end Table

namespace AssetTypes

variable {κ : Type}

/-- Every known extension is one of a family, which has output of the kind of the asset. -/
theorem outputKind_of_mem_builtin {entry : String × Kind} (h : entry ∈ builtin) :
    (Source.Family.ofExtension entry.1).outputKind entry.1 = entry.2 := by
  have hall : ∀ entry ∈ builtin, (Source.Family.ofExtension entry.1).outputKind entry.1 = entry.2 := by
    decide
  exact hall entry h

/-- No other extension is one of a family. -/
theorem ofExtension_of_not_mem_builtin {extension : String} (h : ∀ kind, (extension, kind) ∉ builtin) :
    Source.Family.ofExtension extension = .other := by
  simp only [builtin, List.mem_cons, Prod.mk.injEq, List.not_mem_nil, or_false, not_or] at h
  have hjs := h .js
  have hcss := h .css
  have hhtml := h .html
  simp only [and_true] at hjs hcss hhtml
  simp [Source.Family.ofExtension, hjs, hcss, hhtml]

/-- The kind of an asset is that of the output, except for files without an extension. -/
theorem kindOf_ofFallback (compiler : κ) (p : Path) :
    (ofFallback compiler).kindOf p = if p.HasExtension then Source.kindOf p else ⟨"raw"⟩ := by
  have hempty := Source.extensionOf_eq_empty_iff (p := p)
  unfold kindOf typeOf Source.kindOf
  change (((ofFallback compiler).types.get? (Source.extensionOf p)).getD
    ⟨otherKind (Source.extensionOf p), compiler⟩).kind = _
  generalize Source.extensionOf p = extension at hempty ⊢
  cases htype : (ofFallback compiler).types.get? extension with
  | some type =>
    obtain ⟨entry, hmem, heq⟩ := List.mem_map.1 (Table.mem_of_get?_ofList htype)
    cases heq
    have hknown : entry.1 ≠ "" := by
      have hall : ∀ entry ∈ builtin, entry.1 ≠ "" := by decide
      exact hall entry hmem
    rw [if_pos (by_contra fun hnot => hknown (hempty.2 hnot)), outputKind_of_mem_builtin hmem]
    rfl
  | none =>
    have hother : Source.Family.ofExtension extension = .other := by
      refine ofExtension_of_not_mem_builtin fun kind hmem => ?_
      have hsome : ((ofFallback compiler).types.get? extension).isSome :=
        Table.isSome_get?_ofList (List.mem_map.2 ⟨(extension, kind), hmem, rfl⟩)
      rw [htype] at hsome
      cases hsome
    rw [hother, Option.getD_none]
    unfold otherKind Source.Family.outputKind
    by_cases hext : p.HasExtension
    · rw [if_pos hext, if_neg fun h => hempty.1 h hext]
    · rw [if_neg hext, if_pos (hempty.2 hext)]

end AssetTypes

/-! ## Compiled files -/

namespace Source

variable {path : Path} {minify : Bool} {content : Except FileFault String} {unit : CompiledUnit}

/-- The output of a compiled file stands under one kind, which its path decides. -/
theorem generated_of_compileFile (h : compileFile path minify content = .ok unit) :
    ∃ source text, content = .ok source ∧ output path source = .ok text ∧
      unit.generated = generatedFor path minify text := by
  cases content with
  | error fault => cases h
  | ok source =>
    change compile path minify source = .ok unit at h
    unfold compile at h
    cases htext : output path source with
    | error failure =>
      rw [htext] at h
      cases h
    | ok text =>
      rw [htext] at h
      cases h
      exact ⟨source, text, rfl, htext, rfl⟩

/-- What output of a file there is of some kind. -/
theorem ofKind_generatedFor (path : Path) (minify : Bool) (text : String) (kind : Kind) :
    (generatedFor path minify text).ofKind kind =
      if kind = kindOf path then some (if minify then Text.minifyString text else text) else none := by
  have hkind : kind.tag = (kindOf path).tag ↔ kind = kindOf path := ⟨congrArg Kind.mk, congrArg Kind.tag⟩
  rw [generatedFor, Generated.ofKind, Table.get?_single]
  exact if_congr hkind rfl rfl

/-- A file of raw output would need an extension. -/
theorem kindOf_ne_raw (h : ¬ path.HasExtension) : kindOf path ≠ ⟨"raw"⟩ := by
  rw [kindOf, extensionOf_eq_empty_iff.2 h]
  decide

/-- The kind of the output is that of the asset for files with an extension, and for no others. -/
theorem kindOf_eq_iff {κ : Type} (compiler : κ) :
    kindOf path = (AssetTypes.ofFallback compiler).kindOf path ↔ path.HasExtension := by
  rw [AssetTypes.kindOf_ofFallback]
  by_cases h : path.HasExtension
  · rw [if_pos h]
    exact iff_of_true rfl h
  · rw [if_neg h]
    exact iff_of_false (kindOf_ne_raw h) h

/-- The output of a compiled file stands under one kind.  This is the kind of the file's asset if the file
has an extension, and then a bundle of that kind is packaged from the output; if it has none, then the
bundle is packaged as if the file were empty. -/
theorem compileFile_kinds {κ : Type} (h : compileFile path minify content = .ok unit) (compiler : κ) :
    ∃ source text, content = .ok source ∧ output path source = .ok text ∧
      unit.generated.entries = [((kindOf path).tag, if minify then Text.minifyString text else text)] ∧
      (kindOf path = (AssetTypes.ofFallback compiler).kindOf path ↔ path.HasExtension) ∧
      ∀ (graph : AssetGraph) (bundle : Bundle) (id : AssetId) (asset : Asset),
        bundle.kind = (AssetTypes.ofFallback compiler).kindOf path →
        id ∈ bundle.assets → graph.get? id = some asset → asset.compiled = some unit.generated →
        ∃ copy ∈ (Packaging.snapshot graph bundle).assets, copy.identity = asset.identity ∧
          copy.content =
            if path.HasExtension then (if minify then Text.minifyString text else text) else "" := by
  obtain ⟨source, text, hcontent, htext, hgenerated⟩ := generated_of_compileFile h
  refine ⟨source, text, hcontent, htext, by rw [hgenerated]; rfl, kindOf_eq_iff compiler, ?_⟩
  intro graph bundle id asset hkind hmember hget hcompiled
  have hcopied : asset ∈ bundle.assets.filterMap graph.get? := List.mem_filterMap.2 ⟨id, hmember, hget⟩
  refine ⟨Packaging.copyOf bundle.kind asset, List.mem_map_of_mem hcopied, rfl, ?_⟩
  have hof : (Packaging.copyOf bundle.kind asset).content =
      ((generatedFor path minify text).ofKind bundle.kind).getD "" := by
    rw [Packaging.copyOf, hcompiled, hgenerated]
    rfl
  have hsame : bundle.kind = kindOf path ↔ path.HasExtension := by
    rw [hkind, eq_comm]
    exact kindOf_eq_iff compiler
  rw [hof, ofKind_generatedFor]
  by_cases hext : path.HasExtension
  · rw [if_pos (hsame.2 hext), if_pos hext, Option.getD_some]
  · rw [if_neg fun heq => hext (hsame.1 heq), if_neg hext, Option.getD_none]

/-- A license has its text under the empty kind, and the asset of its file is raw. -/
theorem compileFile_kinds_license :
    ∃ unit, compileFile ⟨"/work/LICENSE"⟩ false (.ok "MIT") = .ok unit ∧
      unit.generated.entries = [("", "MIT")] ∧
      (AssetTypes.ofFallback ()).kindOf ⟨"/work/LICENSE"⟩ = ⟨"raw"⟩ ∧
      ∀ (graph : AssetGraph) (bundle : Bundle) (id : AssetId) (asset : Asset),
        bundle.kind = (AssetTypes.ofFallback ()).kindOf ⟨"/work/LICENSE"⟩ →
        id ∈ bundle.assets → graph.get? id = some asset → asset.compiled = some unit.generated →
        ∃ copy ∈ (Packaging.snapshot graph bundle).assets, copy.identity = asset.identity ∧
          copy.content = "" := by
  have hext : ¬ Path.HasExtension ⟨"/work/LICENSE"⟩ := by decide
  obtain ⟨unit, hunit⟩ : ∃ unit, compileFile ⟨"/work/LICENSE"⟩ false (.ok "MIT") = .ok unit := ⟨_, rfl⟩
  obtain ⟨source, text, hcontent, htext, hentries, -, hpackaged⟩ := compileFile_kinds hunit ()
  cases hcontent
  obtain rfl : "MIT" = text := Except.ok.inj htext
  simp only [if_neg hext] at hpackaged
  refine ⟨unit, hunit, hentries.trans ?_, by rw [AssetTypes.kindOf_ofFallback, if_neg hext], hpackaged⟩
  rw [kindOf, extensionOf_eq_empty_iff.2 hext]
  rfl

/-- The output of a file need not stand under the kind of its asset. -/
theorem exists_kindOf_ne : ¬ ∀ path minify content unit, compileFile path minify content = .ok unit →
    unit.generated.entries.map Prod.fst = [((AssetTypes.ofFallback ()).kindOf path).tag] := by
  intro h
  have hlicense := h ⟨"/work/LICENSE"⟩ false (.ok "MIT") _ rfl
  exact absurd hlicense (by decide)

end Source
end ModuleBundler

import Mathlib.Data.List.TakeWhile
import ModuleBundler.Asset.Types
import ModuleBundler.Proofs.Path.FileName

/-!
# Kinds as extensions

The kinds that the extensions of files lead to can be extensions of output files: what a
file name has behind its last dot holds no dot and no slash, and its lower case does not
bring one in.

Main results:

- Theorem {lit}`Text.mem_of_mem_lowercase`: lower casing brings in nothing that stands below the capitals.
- Theorem {lit}`AssetTypes.isExtension_kindOf`: the kind of a file is an extension.
-/

namespace ModuleBundler

namespace Text

/-- Whether a character stands below the capitals of ASCII, as digits, dots and slashes do. -/
def IsLow (c : Char) : Prop :=
  0 < c.toNat ∧ c.toNat < 'A'.toNat

/-- The small letters of a run are characters, and they stand behind the capitals of ASCII. -/
theorem lower_of_mem_capitalRuns {run : CaseRun} (h : run ∈ capitalRuns) :
    ('A'.toNat : Int) ≤ run.1 + run.2.2.2 ∧ ((run.2.1 : Int) + run.2.2.2 < 0xD800 ∨
      (0xDFFF : Int) < run.1 + run.2.2.2 ∧ (run.2.1 : Int) + run.2.2.2 < 0x110000) := by
  have hall : (capitalRuns.all fun run => decide (('A'.toNat : Int) ≤ run.1 + run.2.2.2 ∧
      ((run.2.1 : Int) + run.2.2.2 < 0xD800 ∨
        (0xDFFF : Int) < run.1 + run.2.2.2 ∧ (run.2.1 : Int) + run.2.2.2 < 0x110000))) = true := by
    decide +kernel
  exact of_decide_eq_true (List.all_eq_true.1 hall run h)

/-- Small letters stand behind the capitals of ASCII. -/
theorem le_of_lower? {run : CaseRun} (hrun : run ∈ capitalRuns) {c small : Char}
    (h : run.lower? c = some small) : 'A'.toNat ≤ small.toNat := by
  obtain ⟨first, last, step, offset⟩ := run
  obtain ⟨hfirst, hlast⟩ := lower_of_mem_capitalRuns hrun
  dsimp only at hfirst hlast
  unfold CaseRun.lower? at h
  dsimp only at h
  split at h
  · cases h
    have hvalid : (c.toNat + offset).toNat.isValidChar := by
      unfold Nat.isValidChar
      omega
    have hsmall : (Char.ofNat (c.toNat + offset).toNat).toNat = (c.toNat + offset).toNat := by
      rw [Char.ofNat, dif_pos hvalid]
      rfl
    omega
  · cases h

/-- In ASCII only letters change. -/
theorem toLower_of_lt {c : Char} (hlow : c.toLower.toNat < 'A'.toNat) : c.toLower = c := by
  unfold Char.toLower at hlow ⊢
  split at hlow
  · rename_i hcapital
    have hfirst : 'A'.toNat ≤ c.val.toNat := hcapital.1
    have hlast : c.val.toNat ≤ 'Z'.toNat := hcapital.2
    have hsmall : (c.val + ('a'.val - 'A'.val)).toNat < 'A'.toNat := hlow
    rw [UInt32.toNat_add] at hsmall
    simp at hfirst hlast hsmall
    omega
  · rename_i hcapital
    rw [dif_neg hcapital]

theorem eq_of_mem_lowerChar {c d : Char} (hlow : c.toNat < 'A'.toNat) (h : c ∈ lowerChar d) : c = d := by
  unfold lowerChar at h
  split at h
  · rw [List.mem_singleton] at h
    subst h
    exact toLower_of_lt hlow
  · split at h
    · have hletters : ∀ letter ∈ ['i', Char.ofNat 0x307], ¬ letter.toNat < 'A'.toNat := by
        simp
      exact absurd hlow (hletters c h)
    · rw [List.mem_singleton] at h
      cases hfound : capitalRuns.findSome? fun run => run.lower? d with
      | none =>
        rw [hfound] at h
        exact h
      | some small =>
        rw [hfound, Option.getD_some] at h
        subst h
        obtain ⟨run, hrun, hlower⟩ := List.exists_of_findSome?_eq_some hfound
        exact absurd hlow (Nat.not_lt.2 (le_of_lower? hrun hlower))

theorem mem_of_mem_lowerFrom {c : Char} (hlow : c.toNat < 'A'.toNat) {before cs : List Char}
    (h : c ∈ lowerFrom before cs) : c ∈ cs := by
  induction cs generalizing before with
  | nil => exact h
  | cons d rest ih =>
    unfold lowerFrom at h
    rcases List.mem_append.1 h with hhere | hrest
    · split at hhere
      · have hsigma : ∀ letter ∈ [Char.ofNat 0x3C2, Char.ofNat 0x3C3], ¬ letter.toNat < 'A'.toNat := by
          simp
        refine absurd hlow (hsigma c ?_)
        split at hhere
        · exact List.mem_cons.2 (.inl (List.mem_singleton.1 hhere))
        · exact List.mem_cons_of_mem _ hhere
      · rw [eq_of_mem_lowerChar hlow hhere]
        exact List.mem_cons_self
    · exact List.mem_cons_of_mem _ (ih hrest)

/-- Lower casing brings in nothing that stands below the capitals. -/
theorem mem_of_mem_lowercase {c : Char} (hlow : IsLow c) {s : String} (h : c ∈ (lowercase s).toList) :
    c ∈ s.toList := by
  unfold lowercase at h
  rw [String.toList_ofList] at h
  exact mem_of_mem_lowerFrom hlow.2 h

theorem nul_mem_of_mem_lowercase {s : String} (h : '\x00' ∈ (lowercase s).toList) : '\x00' ∈ s.toList := by
  unfold lowercase at h
  rw [String.toList_ofList] at h
  exact mem_of_mem_lowerFrom (by decide) h

end Text

namespace Path

/-- What stands behind the last dot of a file name. -/
theorem of_splitName {fileName extension : String} (h : (splitName fileName).2 = some extension) {c : Char}
    (hc : c ∈ extension.toList) : c ∈ fileName.toList ∧ c ≠ '.' := by
  unfold splitName at h
  dsimp only at h
  split at h
  · cases h
  · split at h
    · cases h
    · cases h
      rw [String.toList_ofList, List.mem_reverse] at hc
      refine ⟨List.mem_reverse.1 ((List.takeWhile_sublist _).mem hc), ?_⟩
      simpa using List.mem_takeWhile_imp hc

/-- The extension in lower case holds no dot and no slash. -/
theorem dotless_foldedExtension (p : Path) : IsFlat (p.foldedExtension Text.lowercase) ∧
    '.' ∉ (p.foldedExtension Text.lowercase).toList := by
  unfold foldedExtension
  cases hextension : p.extension? with
  | none => exact ⟨nofun, nofun⟩
  | some extension =>
    obtain ⟨fileName, hfile, hsplit⟩ := Option.bind_eq_some_iff.1 hextension
    have hslash : Text.IsLow '/' := ⟨by decide, by decide⟩
    have hdot : Text.IsLow '.' := ⟨by decide, by decide⟩
    refine ⟨fun hmem => ?_, fun hmem => ?_⟩
    · exact isFlat_of_fileName? hfile (of_splitName hsplit (Text.mem_of_mem_lowercase hslash hmem)).1
    · exact (of_splitName hsplit (Text.mem_of_mem_lowercase hdot hmem)).2 rfl

end Path

namespace Table

/-- What the table of a list assigns is in the list. -/
theorem mem_of_get?_ofList {α : Type} {entries : List (String × α)} {key : String} {value : α}
    (h : (ofList entries).get? key = some value) : (key, value) ∈ entries := by
  have hfold : ∀ (entries : List (String × α)) (table : Table α),
      (entries.foldl (fun table entry => table.put entry.1 entry.2) table).get? key = some value →
        (key, value) ∈ entries ∨ table.get? key = some value := by
    intro entries
    induction entries with
    | nil => exact fun _ h => .inr h
    | cons head rest ih =>
      intro table h
      rcases ih (table.put head.1 head.2) h with hrest | hput
      · exact .inl (List.mem_cons_of_mem _ hrest)
      · by_cases hkey : key = head.1
        · subst hkey
          rw [get?_put_self, Option.some.injEq] at hput
          subst hput
          exact .inl List.mem_cons_self
        · rw [get?_put_of_ne hkey] at hput
          exact .inr hput
  rcases hfold entries empty h with hmem | hempty
  · exact hmem
  · cases hempty

end Table

namespace AssetTypes

variable {κ : Type}

theorem isExtension_otherKind {extension : String} (hflat : Path.IsFlat extension)
    (hdotless : '.' ∉ extension.toList) : Path.IsExtension (otherKind extension).tag := by
  unfold otherKind
  split
  · decide
  · rename_i hne
    exact ⟨hflat, hdotless, hne⟩

/-- The kinds of the types that every project knows are extensions. -/
theorem isExtension_of_builtin {compiler : κ} {extension : String} {type : AssetType κ}
    (h : (ofFallback compiler).types.get? extension = some type) : Path.IsExtension type.kind.tag := by
  have hall : ∀ entry ∈ builtin, Path.IsExtension entry.2.tag := by decide
  obtain ⟨entry, hmem, heq⟩ := List.mem_map.1 (Table.mem_of_get?_ofList h)
  cases heq
  exact hall entry hmem

/-- The kind of a file is an extension. -/
theorem isExtension_kindOf (compiler : κ) (p : Path) :
    Path.IsExtension ((ofFallback compiler).kindOf p).tag := by
  obtain ⟨hflat, hdotless⟩ := p.dotless_foldedExtension
  unfold kindOf typeOf
  dsimp only
  cases htype : (ofFallback compiler).types.get? (p.foldedExtension Text.lowercase) with
  | none => exact isExtension_otherKind hflat hdotless
  | some type => exact isExtension_of_builtin htype

end AssetTypes
end ModuleBundler

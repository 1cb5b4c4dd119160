import ModuleBundler.Proofs.FileTree.Dating

/-!
# What a persistent cache may serve

Every record of a cache tells what compiling a file gave at some time, and when
the file had been changed last.  As long as a file that has changed shows a later
time than before, a record that is current tells what compiling the file gives
now.  A record does not say how the file was compiled, so that all of them have
to be made in one way: {lit}`minify` is the same throughout.

Main results:

- Theorem {lit}`Persistent.Truthful.read`: a unit that is served is what compiling the file gives.
- Theorem {lit}`Persistent.Truthful.write`: keeping a unit that was just compiled does no harm.
-/

namespace ModuleBundler

namespace FileTree

/-- A path that leads somewhere is not too long. -/
theorem utf8ByteSize_le_of_find {tree : FileTree} {p : Path} {found : Address × Entry}
    (h : tree.find p = .ok found) : p.text.utf8ByteSize ≤ maxPath := by
  have hlocate := find_eq_ok_iff.1 (show tree.find p = .ok (found.1, found.2) from h)
  unfold FileTree.locate at hlocate
  split at hlocate
  · cases hlocate
  · split at hlocate
    · cases hlocate
    · split at hlocate
      · cases hlocate
      · rename_i hlong
        exact Nat.not_lt.1 hlong

end FileTree

namespace Cache
namespace Persistent

open Record (IsWord)

/-! ## Times -/

theorem find_of_changed? {tree : FileTree} {p : Path} {time : Nat} (h : changed? tree p = some time) :
    ∃ found, tree.find p = .ok found := by
  unfold changed? FileTree.changed? at h
  cases hfind : tree.find p with
  | error fault => rw [hfind] at h; cases h
  | ok found => exact ⟨found, rfl⟩

theorem isWord_of_changed? {tree : FileTree} {p : Path} {time : Nat} (h : changed? tree p = some time) :
    IsWord p.text.utf8ByteSize ∧ IsWord time := by
  obtain ⟨found, hfind⟩ := find_of_changed? h
  have hlong := FileTree.utf8ByteSize_le_of_find hfind
  have hlimit : FileTree.maxPath < 256 ^ 8 := by decide
  refine ⟨Nat.lt_of_le_of_lt hlong hlimit, ?_⟩
  unfold changed? at h
  split at h
  · split at h
    · cases h
      exact Nat.mod_lt _ (by decide)
    · cases h
  · cases h

/-- Times of an ordinary tree are kept as they are. -/
theorem changed?_eq_some {tree : FileTree} (htree : tree.Ordinary) {p : Path} {time : Nat}
    (h : changed? tree p = some time) : tree.changed? p = some (time : Int) := by
  unfold changed? at h
  split at h
  · rename_i found hfound
    have hlimit := htree.times p found hfound
    split at h
    · rename_i hpos
      cases h
      have hlt : found.toNat < timeLimit := by omega
      rw [hfound, Nat.mod_eq_of_lt hlt, Int.toNat_of_nonneg hpos]
    · cases h
  · cases h

theorem stamp_cons {tree : FileTree} {p : Path} {paths : List Path} {inputs : List (Path × Nat)}
    (h : stamp tree (p :: paths) = .ok inputs) :
    ∃ time rest, changed? tree p = some time ∧ stamp tree paths = .ok rest ∧ inputs = (p, time) :: rest := by
  unfold stamp at h
  cases htime : changed? tree p with
  | none => rw [htime] at h; cases h
  | some time =>
    rw [htime] at h
    cases hstamp : stamp tree paths with
    | error failure => rw [hstamp] at h; cases h
    | ok rest =>
      rw [hstamp] at h
      cases h
      exact ⟨time, rest, rfl, rfl, rfl⟩

theorem isWord_of_stamp {tree : FileTree} {paths : List Path} {inputs : List (Path × Nat)}
    (h : stamp tree paths = .ok inputs) : inputs.length = paths.length ∧
      ∀ input ∈ inputs, IsWord input.1.text.utf8ByteSize ∧ IsWord input.2 := by
  induction paths generalizing inputs with
  | nil =>
    cases h
    exact ⟨rfl, fun input hmem => by cases hmem⟩
  | cons p rest ih =>
    obtain ⟨time, stamped, htime, hstamp, rfl⟩ := stamp_cons h
    obtain ⟨hlength, hrest⟩ := ih hstamp
    refine ⟨congrArg Nat.succ hlength, ?_⟩
    rw [List.forall_mem_cons]
    exact ⟨isWord_of_changed? htime, hrest⟩

/-! ## Records -/

/-- Whether a record tells what compiling a file gives in a tree, and when the file was changed last. -/
structure Tells (minify : Bool) (tree : FileTree) (p : Path) (record : Record) : Prop where
  unit : Source.compileFile p minify (tree.readText p) = .ok record.unit
  stamped : ∃ time rest, changed? tree p = some time ∧ record.inputs = (p, time) :: rest

/-- Whether every record of a cache tells what compiling its file gave in one of the trees. -/
def Truthful (minify : Bool) (trees : List FileTree) (cache : Persistent) : Prop :=
  ∀ key bytes, cache.records.get? key = some bytes →
    ∃ tree ∈ trees, ∃ record, Record.decode bytes = .ok record ∧ Tells minify tree ⟨key⟩ record

variable {minify : Bool} {trees : List FileTree} {cache : Persistent} {tree : FileTree}

theorem truthful_empty (minify : Bool) (trees : List FileTree) : Truthful minify trees {} :=
  fun key bytes h => by cases h

/-- What was true stays true when time goes on. -/
theorem Truthful.mono {more : List FileTree} (h : cache.Truthful minify trees) (hsub : trees ⊆ more) :
    cache.Truthful minify more := by
  intro key bytes hget
  obtain ⟨tree, hmem, htells⟩ := h key bytes hget
  exact ⟨tree, hsub hmem, htells⟩

/-- A record that is current tells what compiling the file gives now. -/
theorem Tells.compileFile {earlier : FileTree} {p : Path} {record : Record}
    (h : Tells minify earlier p record) (hearlier : earlier.Ordinary) (htree : tree.Ordinary)
    (hfollows : tree.Follows earlier) (hcurrent : record.inputs.all (isCurrent tree) = true) :
    Source.compileFile p minify (tree.readText p) = .ok record.unit := by
  obtain ⟨before, rest, hbefore, hinputs⟩ := h.stamped
  rw [hinputs, List.all_cons, Bool.and_eq_true] at hcurrent
  have hnow := hcurrent.1
  unfold isCurrent at hnow
  cases hafter : changed? tree p with
  | none => rw [hafter] at hnow; cases hnow
  | some after =>
    rw [hafter] at hnow
    have hle : after ≤ before := of_decide_eq_true hnow
    have htext := hfollows p before after (changed?_eq_some hearlier hbefore)
      (changed?_eq_some htree hafter) (Int.ofNat_le.2 hle)
    rw [htext]
    exact h.unit

/-- A unit that is served is what compiling the file gives. -/
theorem Truthful.read (h : cache.Truthful minify trees) (htree : tree.Ordinary)
    (htrees : ∀ earlier ∈ trees, earlier.Ordinary ∧ tree.Follows earlier) {p : Path} {unit : CompiledUnit}
    (hread : cache.read tree p = .ok (some unit)) :
    Source.compileFile p minify (tree.readText p) = .ok unit := by
  unfold Persistent.read at hread
  cases hget : cache.records.get? p.text with
  | none => rw [hget] at hread; cases hread
  | some bytes =>
    obtain ⟨earlier, hmem, record, hdecode, htells⟩ := h p.text bytes hget
    obtain ⟨hearlier, hfollows⟩ := htrees earlier hmem
    rw [hget] at hread
    dsimp only at hread
    rw [hdecode] at hread
    dsimp only at hread
    injection hread with hread
    split at hread
    · rename_i hcurrent
      injection hread with hunit
      rw [← hunit]
      exact htells.compileFile hearlier htree hfollows hcurrent
    · cases hread

/-- The record of a unit that was just compiled can be written down. -/
theorem isWritable_of_compileFile (htree : tree.Ordinary) {p : Path} {unit : CompiledUnit}
    {inlined : List Path} {inputs : List (Path × Nat)}
    (hunit : Source.compileFile p minify (tree.readText p) = .ok unit)
    (hcount : inlined.length ≤ unit.dependencies.length)
    (hstamp : stamp tree (p :: inlined) = .ok inputs) : Record.IsWritable ⟨inputs, unit⟩ := by
  obtain ⟨hlength, hinputs⟩ := isWord_of_stamp hstamp
  cases hsource : tree.readText p with
  | error fault => rw [hsource] at hunit; cases hunit
  | ok source =>
    rw [hsource] at hunit
    obtain ⟨address, content, time, hfind, -⟩ := FileTree.find_of_readText hsource
    have hshort := htree.texts p source hsource
    have himports := Source.length_dependencies_le p source
    have hlimit : Source.maxLength = 1152921504606846976 := rfl
    have hdependencies := Source.dependencies_compile hunit
    refine ⟨?_, hinputs, Source.isWritable_compile (FileTree.utf8ByteSize_le_of_find hfind) hshort hunit⟩
    dsimp only
    rw [hdependencies] at hcount
    rw [hlength, List.length_cons]
    unfold IsWord UInt64.size
    omega

/-- Keeping a unit that was just compiled does no harm. -/
theorem Truthful.write {kept : Persistent} (h : cache.Truthful minify trees) (hmem : tree ∈ trees)
    (htree : tree.Ordinary) {p : Path} {unit : CompiledUnit} {inlined : List Path}
    (hunit : Source.compileFile p minify (tree.readText p) = .ok unit)
    (hcount : inlined.length ≤ unit.dependencies.length)
    (hwrite : cache.write tree p unit inlined = .ok kept) : kept.Truthful minify trees := by
  unfold Persistent.write at hwrite
  cases hstamp : stamp tree (p :: inlined) with
  | error failure => rw [hstamp] at hwrite; cases hwrite
  | ok inputs =>
    rw [hstamp] at hwrite
    cases hwrite
    have hwritable := isWritable_of_compileFile htree hunit hcount hstamp
    intro key bytes hget
    by_cases hkey : key = p.text
    · subst hkey
      rw [Table.get?_put_self] at hget
      cases hget
      obtain ⟨time, rest, htime, -, hinputs⟩ := stamp_cons hstamp
      exact ⟨tree, hmem, _, Record.decode_encode hwritable, hunit, time, rest, htime, hinputs⟩
    · rw [Table.get?_put_of_ne hkey] at hget
      exact h key bytes hget

end Persistent
end Cache
end ModuleBundler

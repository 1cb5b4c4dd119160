import Mathlib.Data.List.Induction
import ModuleBundler.Proofs.Cache.Truth
import ModuleBundler.Proofs.History

/-!
# What a persistent cache serves

Any number of uses of a persistent cache, one after the other, while the files change as they like:
they are made, removed, or replaced by files that were changed earlier or later.  What is served for an
asset depends on its last write that could be done and on the times of that write.  A file that is
older now than it was then counts as the same file, so that a unit is served although the file was
replaced.

Main results:

- Theorem {lit}`Persistent.get?_after`: the record of an asset is that of its last write.
- Theorem {lit}`Persistent.read_after`: a unit is served while no input has a later time.
- Theorem {lit}`Persistent.after_of_fails`: a write that fails does not matter.
-/

namespace ModuleBundler
namespace Cache
namespace Persistent

open Record (IsWord)

/-! ## Uses -/

/-- What a cache is used for. -/
inductive Action where
  | read (p : Path)
  | write (p : Path) (unit : CompiledUnit) (inlined : List Path)
  | invalidate (p : Path)
  | clear

/-- A use of a cache, and the files that there are at that time. -/
structure Use where
  tree : FileTree
  action : Action

/-- Whether all inputs of a unit have a time: they exist, and were not changed before the epoch. -/
def Timed (tree : FileTree) (inputs : List Path) : Prop :=
  ∀ input ∈ inputs, (changed? tree input).isSome

namespace Use

/-- The cache after a use. -/
def apply (cache : Persistent) (use : Use) : Persistent :=
  match use.action with
  | .read _ => cache
  | .write p unit inlined =>
    match cache.write use.tree p unit inlined with
    | .ok kept => kept
    | .error _ => cache
  | .invalidate p => cache.invalidate p
  | .clear => cache.clear

/-- Whether a use replaces or removes the record of an asset. -/
def Settles (p : Path) (use : Use) : Prop :=
  match use.action with
  | .read _ => False
  | .write q _ inlined => q = p ∧ Timed use.tree (q :: inlined)
  | .invalidate q => q = p
  | .clear => True

/-- Whether a use is a write that fails. -/
def Fails (cache : Persistent) (use : Use) : Prop :=
  ∃ p unit inlined failure, use.action = .write p unit inlined ∧
    cache.write use.tree p unit inlined = .error failure

/-- Whether the numbers that a record of the use is written down with fit into eight bytes each. -/
def IsWritable (use : Use) : Prop :=
  ∀ p unit inlined, use.action = .write p unit inlined → unit.IsWritable ∧ IsWord (inlined.length + 1)

end Use

/-- The cache after a number of uses, the first one first. -/
def after (uses : List Use) : Persistent :=
  uses.foldl Use.apply {}

/-- Whether a use is a write of an asset that can be done and keeps this unit, with these inlined files, in
this tree. -/
def Keeps (p : Path) (written : FileTree) (unit : CompiledUnit) (inlined : List Path) (use : Use) : Prop :=
  use = ⟨written, .write p unit inlined⟩ ∧ Timed written (p :: inlined)

/-- Whether the last write of an asset that could be done has kept this unit, and the record was not removed
since. -/
def LastWrite (uses : List Use) (p : Path) (written : FileTree) (unit : CompiledUnit)
    (inlined : List Path) : Prop :=
  Since (Keeps p written unit inlined) (Use.Settles p) uses

/-- Whether a file has a time now, and no later one than it had then. -/
def NoLater (now past : FileTree) (p : Path) : Prop :=
  ∃ time before, changed? now p = some time ∧ changed? past p = some before ∧ time ≤ before

section Uses

variable {tree written : FileTree} {p q : Path} {unit : CompiledUnit} {inlined paths : List Path}
  {inputs : List (Path × Nat)} {uses later : List Use} {use : Use}

/-! ## Times -/

theorem timed_cons : Timed tree (p :: paths) ↔ (changed? tree p).isSome ∧ Timed tree paths :=
  List.forall_mem_cons

/-- Inputs can be stamped if each of them has a time. -/
theorem exists_stamp_iff : (∃ inputs, stamp tree paths = .ok inputs) ↔ Timed tree paths := by
  induction paths with
  | nil => exact ⟨fun _ _ hmem => by simp at hmem, fun _ => ⟨[], rfl⟩⟩
  | cons p rest ih =>
    rw [timed_cons, ← ih]
    constructor
    · rintro ⟨inputs, hstamp⟩
      obtain ⟨time, stamped, htime, hrest, -⟩ := stamp_cons hstamp
      exact ⟨by simp [htime], stamped, hrest⟩
    · rintro ⟨htime, stamped, hrest⟩
      obtain ⟨time, htime⟩ := Option.isSome_iff_exists.1 htime
      exact ⟨(p, time) :: stamped, by simp [stamp, htime, hrest, Except.map]⟩

/-- A write can be done if all inputs have a time, and only then. -/
theorem exists_write_iff (cache : Persistent) (unit : CompiledUnit) :
    (∃ kept, cache.write tree p unit inlined = .ok kept) ↔ Timed tree (p :: inlined) := by
  rw [← exists_stamp_iff]
  unfold write
  cases hstamp : stamp tree (p :: inlined) with
  | error failure => simp [Except.map]
  | ok inputs => simp [Except.map]

/-- Stamped inputs are current as long as none of them has a later time. -/
theorem all_isCurrent_iff (hstamp : stamp written paths = .ok inputs) :
    inputs.all (isCurrent tree) = true ↔ ∀ input ∈ paths, NoLater tree written input := by
  induction paths generalizing inputs with
  | nil =>
    cases hstamp
    simp
  | cons p rest ih =>
    obtain ⟨time, stamped, htime, hrest, rfl⟩ := stamp_cons hstamp
    have hcurrent : isCurrent tree (p, time) = true ↔ NoLater tree written p := by
      simp [isCurrent, NoLater, htime, Option.any_eq_true]
    rw [List.all_cons, Bool.and_eq_true, hcurrent, ih hrest, List.forall_mem_cons]

/-! ## Records -/

/-- What a write does that can be done. -/
theorem apply_write (cache : Persistent) (unit : CompiledUnit)
    (hstamp : stamp tree (p :: inlined) = .ok inputs) :
    Use.apply cache ⟨tree, .write p unit inlined⟩ =
      ⟨cache.records.put p.text (Record.encode ⟨inputs, unit⟩)⟩ := by
  simp [Use.apply, write, hstamp, Except.map]

/-- A write that fails does nothing. -/
theorem apply_of_fails {cache : Persistent} (h : use.Fails cache) : use.apply cache = cache := by
  obtain ⟨q, unit, inlined, failure, haction, hfails⟩ := h
  simp [Use.apply, haction, hfails]

theorem lookup_filter_of_ne {α : Type} {key other : String} (h : other ≠ key) (entries : List (String × α)) :
    (entries.filter fun entry => entry.1 != key).lookup other = entries.lookup other := by
  induction entries with
  | nil => rfl
  | cons head rest ih =>
    by_cases hkey : head.1 = key
    · have hbeq : (other == head.1) = false := by simpa [hkey] using h
      rw [List.filter_cons_of_neg (by simp [hkey]), ih, List.lookup_cons, hbeq]
    · rw [List.filter_cons_of_pos (by simpa using hkey), List.lookup_cons, List.lookup_cons, ih]

/-- A use that does not concern an asset leaves its record as it is. -/
theorem get?_apply_of_not_settles (h : ¬ use.Settles p) (cache : Persistent) :
    (use.apply cache).records.get? p.text = cache.records.get? p.text := by
  obtain ⟨tree, action⟩ := use
  have hne : ∀ {q : Path}, ¬ q = p → p.text ≠ q.text := fun hq heq => hq (congrArg Path.mk heq.symm)
  cases action with
  | read q => rfl
  | clear => exact absurd trivial h
  | invalidate q => exact lookup_filter_of_ne (hne h) _
  | write q unit inlined =>
    by_cases htimed : Timed tree (q :: inlined)
    · obtain ⟨inputs, hstamp⟩ := exists_stamp_iff.2 htimed
      rw [apply_write cache unit hstamp]
      exact Table.get?_put_of_ne (hne fun hq => h ⟨hq, htimed⟩) _ _
    · rw [apply_of_fails]
      cases hwrite : cache.write tree q unit inlined with
      | ok kept => exact absurd ((exists_write_iff cache unit).1 ⟨kept, hwrite⟩) htimed
      | error failure => exact ⟨q, unit, inlined, failure, rfl, hwrite⟩

/-- A use that concerns an asset leaves the record that it writes, or none. -/
theorem get?_apply_of_settles (h : use.Settles p) {cache : Persistent} {bytes : List UInt8} :
    (use.apply cache).records.get? p.text = some bytes ↔
      ∃ written unit inlined inputs, use = ⟨written, .write p unit inlined⟩ ∧
        stamp written (p :: inlined) = .ok inputs ∧ bytes = Record.encode ⟨inputs, unit⟩ := by
  obtain ⟨tree, action⟩ := use
  cases action with
  | read q => exact absurd h id
  | clear => simp [Use.apply, clear]
  | invalidate q =>
    obtain rfl : q = p := h
    simp [Use.apply, invalidate, Table.get?, Table.erase, lookup_filter_self]
  | write q unit inlined =>
    obtain ⟨rfl, htimed⟩ := h
    obtain ⟨inputs, hstamp⟩ := exists_stamp_iff.2 htimed
    rw [apply_write cache unit hstamp]
    simp only [Table.get?_put_self, Option.some.injEq]
    constructor
    · rintro rfl
      exact ⟨tree, unit, inlined, inputs, rfl, hstamp, rfl⟩
    · rintro ⟨written, other, files, stamped, huse, hstamped, rfl⟩
      cases huse
      rw [hstamp] at hstamped
      cases hstamped
      rfl

theorem after_append (uses : List Use) (use : Use) : after (uses ++ [use]) = use.apply (after uses) := by
  simp [after]

/-- The record of an asset is that of its last write. -/
theorem get?_after {bytes : List UInt8} : (after uses).records.get? p.text = some bytes ↔
    ∃ written unit inlined inputs, LastWrite uses p written unit inlined ∧
      stamp written (p :: inlined) = .ok inputs ∧ bytes = Record.encode ⟨inputs, unit⟩ := by
  induction uses using List.reverseRecOn with
  | nil => simp [after, LastWrite, Table.get?_empty]
  | append_singleton uses use ih =>
    rw [after_append]
    by_cases hsettles : use.Settles p
    · rw [get?_apply_of_settles hsettles]
      refine exists_congr fun written => exists_congr fun unit => exists_congr fun inlined =>
        exists_congr fun inputs => and_congr_left fun hwritten => ?_
      have htimed : Timed written (p :: inlined) := exists_stamp_iff.1 ⟨inputs, hwritten.1⟩
      simp [LastWrite, since_append, Keeps, hsettles, htimed]
    · rw [get?_apply_of_not_settles hsettles, ih]
      refine exists_congr fun written => exists_congr fun unit => exists_congr fun inlined =>
        exists_congr fun inputs => and_congr_left fun hwritten => ?_
      have hother : ¬ Keeps p written unit inlined use := by
        rintro ⟨rfl, htimed⟩
        exact hsettles ⟨rfl, htimed⟩
      simp [LastWrite, since_append, hother, hsettles]

/-! ## Answers -/

/-- The record of a last write can be read. -/
theorem isWritable_of_lastWrite (huses : ∀ use ∈ uses, use.IsWritable)
    (h : LastWrite uses p written unit inlined) (hstamp : stamp written (p :: inlined) = .ok inputs) :
    Record.IsWritable ⟨inputs, unit⟩ := by
  obtain ⟨before, use, later, rfl, ⟨rfl, -⟩, -⟩ := h
  obtain ⟨hunit, hcount⟩ := huses _ (List.mem_append_right _ List.mem_cons_self) p unit inlined rfl
  obtain ⟨hlength, hinputs⟩ := isWord_of_stamp hstamp
  exact ⟨by simpa [hlength] using hcount, hinputs, hunit⟩

/-- A unit is served as long as no input of the last write has a later time. -/
theorem read_after (huses : ∀ use ∈ uses, use.IsWritable) :
    (after uses).read tree p = .ok (some unit) ↔
      ∃ written inlined, LastWrite uses p written unit inlined ∧
        ∀ input ∈ p :: inlined, NoLater tree written input := by
  constructor
  · intro hread
    unfold read at hread
    split at hread
    · cases hread
    · rename_i bytes hget
      obtain ⟨written, kept, inlined, inputs, hlast, hstamp, rfl⟩ := get?_after.1 hget
      rw [Record.decode_encode (isWritable_of_lastWrite huses hlast hstamp)] at hread
      simp only [Except.ok.injEq, Option.ite_none_right_eq_some, Option.some.injEq] at hread
      obtain ⟨hcurrent, rfl⟩ := hread
      exact ⟨written, inlined, hlast, (all_isCurrent_iff hstamp).1 hcurrent⟩
  · rintro ⟨written, inlined, hlast, htimes⟩
    have htimed : Timed written (p :: inlined) := fun input hmem => by
      obtain ⟨time, before, -, hbefore, -⟩ := htimes input hmem
      simp [hbefore]
    obtain ⟨inputs, hstamp⟩ := exists_stamp_iff.2 htimed
    have hget := get?_after.2 ⟨written, unit, inlined, inputs, hlast, hstamp, rfl⟩
    have hdecode := Record.decode_encode (isWritable_of_lastWrite huses hlast hstamp)
    have hcurrent := (all_isCurrent_iff hstamp).2 htimes
    simp [read, hget, hdecode, hcurrent]

/-- A cache never fails to answer. -/
theorem exists_read_after (huses : ∀ use ∈ uses, use.IsWritable) (tree : FileTree) (p : Path) :
    ∃ answer, (after uses).read tree p = .ok answer := by
  unfold read
  split
  · exact ⟨none, rfl⟩
  · rename_i bytes hget
    obtain ⟨written, unit, inlined, inputs, hlast, hstamp, rfl⟩ := get?_after.1 hget
    rw [Record.decode_encode (isWritable_of_lastWrite huses hlast hstamp)]
    exact ⟨_, rfl⟩

/-- After a write that fails, all goes on as if it had not been tried. -/
theorem after_of_fails {before : List Use} (h : use.Fails (after before)) (later : List Use) :
    after (before ++ use :: later) = after (before ++ later) := by
  have huse : use.apply (after before) = after before := apply_of_fails h
  unfold after at *
  rw [List.foldl_append, List.foldl_append, List.foldl_cons, huse]

/-- What a cache serves after any uses, between which the files may have changed in any way: the unit of the
last write that could be done, if it was not removed since and no input has a later time than then.  A
write can be done when all its inputs have a time, and leaves no trace otherwise. -/
theorem serves_iff (uses : List Use) (huses : ∀ use ∈ uses, use.IsWritable) (tree : FileTree) (p : Path) :
    (∃ answer, (after uses).read tree p = .ok answer) ∧
      (∀ unit, (after uses).read tree p = .ok (some unit) ↔
        ∃ written inlined, LastWrite uses p written unit inlined ∧
          ∀ input ∈ p :: inlined, NoLater tree written input) ∧
      (∀ unit inlined, (∃ kept, (after uses).write tree p unit inlined = .ok kept) ↔
        Timed tree (p :: inlined)) ∧
      ∀ before use later, uses = before ++ use :: later → use.Fails (after before) →
        after uses = after (before ++ later) := by
  refine ⟨exists_read_after huses tree p, fun unit => read_after huses,
    fun unit inlined => exists_write_iff _ unit, ?_⟩
  rintro before use later rfl hfails
  exact after_of_fails hfails later

end Uses

/-! ## A file that grows older -/

/-- A stylesheet and a file that is inlined into it, which has the given time. -/
def themeTree (time : Nat) : FileTree :=
  ⟨[(["theme.less"], .file .empty 5), (["vars.less"], .file .empty time)], [], 9⟩

/-- The unit of the stylesheet. -/
def themeUnit : CompiledUnit :=
  ⟨.single "css" "p {}", "", []⟩

/-- The unit of the stylesheet is kept.  Another one cannot be kept, as an inlined file is missing. -/
def themeUses : List Use :=
  [⟨themeTree 5, .write ⟨"/theme.less"⟩ themeUnit [⟨"/vars.less"⟩]⟩,
    ⟨themeTree 7, .write ⟨"/theme.less"⟩ ⟨.empty, "", []⟩ [⟨"/gone.less"⟩]⟩]

theorem changed?_of_at? {tree : FileTree} {p : Path} {name : String} {content : ByteArray} {time : Nat}
    (hspells : FileTree.Spells p ([] ++ [name])) (hat : tree.at? [name] = some (.file content time))
    (htime : time < timeLimit) : changed? tree p = some time := by
  have hfind := FileTree.find_of_spells hspells (FileTree.open_single tree name) hat nofun
  simp [changed?, FileTree.changed?, hfind, Entry.changed?, Nat.mod_eq_of_lt htime]

theorem changed?_theme (time : Nat) : changed? (themeTree time) ⟨"/theme.less"⟩ = some 5 :=
  changed?_of_at? (by decide) (show (themeTree time).at? ["theme.less"] = _ from rfl) (by decide)

theorem changed?_vars (time : Nat) (h : time < timeLimit) :
    changed? (themeTree time) ⟨"/vars.less"⟩ = some time :=
  changed?_of_at? (by decide) (show (themeTree time).at? ["vars.less"] = _ from rfl) h

theorem changed?_gone (time : Nat) : changed? (themeTree time) ⟨"/gone.less"⟩ = none := by
  have hspells : FileTree.Spells ⟨"/gone.less"⟩ ([] ++ ["gone.less"]) := by decide
  have hfind := FileTree.find_of_spells_none hspells (FileTree.open_single (themeTree time) _) rfl
  simp [changed?, FileTree.changed?, hfind]

theorem isWritable_themeUses : ∀ use ∈ themeUses, use.IsWritable := by
  have hsmall : ∀ {n : Nat}, n < 1000 → IsWord n := fun h => Nat.lt_trans h (by decide)
  have hunit : themeUnit.IsWritable := by
    refine ⟨hsmall (by decide), fun entry hmem => ?_, hsmall (by decide), hsmall (by decide), nofun⟩
    obtain rfl := List.mem_singleton.1 hmem
    exact ⟨hsmall (by decide), hsmall (by decide)⟩
  have hnone : CompiledUnit.IsWritable ⟨.empty, "", []⟩ :=
    ⟨hsmall (by decide), nofun, hsmall (by decide), hsmall (by decide), nofun⟩
  have htwo : IsWord 2 := hsmall (by decide)
  simp [themeUses, Use.IsWritable, hunit, hnone, htwo]

/-- The write of the missing file fails whatever is in the cache. -/
theorem fails_themeUses (cache : Persistent) :
    Use.Fails cache ⟨themeTree 7, .write ⟨"/theme.less"⟩ ⟨.empty, "", []⟩ [⟨"/gone.less"⟩]⟩ := by
  refine ⟨_, _, _, .cache "Cannot stat cache input /gone.less", rfl, ?_⟩
  simp [write, stamp, changed?_theme, changed?_gone, Except.map]

theorem lastWrite_themeUses :
    LastWrite themeUses ⟨"/theme.less"⟩ (themeTree 5) themeUnit [⟨"/vars.less"⟩] := by
  refine ⟨[], _, _, rfl, ⟨rfl, ?_⟩, ?_⟩
  · simp [Timed, changed?_theme, changed?_vars 5 (by decide)]
  · simp [Use.Settles, Timed, changed?_gone]

/-- The unit of the last write that could be done is served, and the write that failed has left no trace. -/
theorem serves_themeUses :
    (∀ use ∈ themeUses, use.IsWritable) ∧
      (after themeUses).read (themeTree 5) ⟨"/theme.less"⟩ = .ok (some themeUnit) ∧
      after themeUses = after (themeUses.take 1) := by
  obtain ⟨-, hserves, -, hfails⟩ := serves_iff themeUses isWritable_themeUses (themeTree 5) ⟨"/theme.less"⟩
  refine ⟨isWritable_themeUses, (hserves themeUnit).2 ⟨_, _, lastWrite_themeUses, ?_⟩, ?_⟩
  · simp [NoLater, changed?_theme, changed?_vars 5 (by decide)]
  · exact hfails (themeUses.take 1) _ [] rfl (fails_themeUses _)

/-- A unit is served although the file that was inlined into it is no longer the one with the time of the
record, but an older one. -/
theorem exists_served_for_older : (∀ use ∈ themeUses, use.IsWritable) ∧
    LastWrite themeUses ⟨"/theme.less"⟩ (themeTree 5) themeUnit [⟨"/vars.less"⟩] ∧
    changed? (themeTree 5) ⟨"/vars.less"⟩ = some 5 ∧ changed? (themeTree 3) ⟨"/vars.less"⟩ = some 3 ∧
    (after themeUses).read (themeTree 3) ⟨"/theme.less"⟩ = .ok (some themeUnit) := by
  have hread : (after themeUses).read (themeTree 3) ⟨"/theme.less"⟩ = .ok (some themeUnit) := by
    refine (read_after isWritable_themeUses).2 ⟨_, _, lastWrite_themeUses, ?_⟩
    simp [NoLater, changed?_theme, changed?_vars 5 (by decide), changed?_vars 3 (by decide)]
  exact ⟨isWritable_themeUses, lastWrite_themeUses, changed?_vars 5 (by decide),
    changed?_vars 3 (by decide), hread⟩

end Persistent
end Cache
end ModuleBundler

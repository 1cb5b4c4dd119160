import ModuleBundler.Proofs.Asset.Extension
import ModuleBundler.Proofs.Bundle.Skipping
import ModuleBundler.Proofs.FileTree.Dating
import ModuleBundler.Proofs.FileTree.Spelling
import ModuleBundler.Proofs.Source.Kinds

/-!
# What a fingerprint tells of the output

The fingerprint of an output is the digest of its transcript: for every kind the tag, a
NUL and the text, one kind behind the other.  The NUL says where a tag ends, but nothing
says where a text ends.  So two outputs have one transcript if a text of one of them goes
on, in the other one, with what stands behind it in the first: a text that ends with an m
before the kind js reads as one without it before the kind mjs.  There is no other way.

Files that are compiled have one kind of output, behind which nothing stands, so their
fingerprints tell their outputs apart.

Main results:

- Theorem {lit}`Generated.transcript_eq_iff`: which outputs have one transcript.
- Theorem {lit}`Generated.fingerprint_eq_iff`: which outputs have one fingerprint.
- Theorem {lit}`Generated.exists_shared_transcript`: two outputs of a page that have one fingerprint.
- Theorem {lit}`Generated.eq_of_keys_eq`: outputs of the same kinds are told apart, unless a text holds a NUL.
- Theorem {lit}`Packaging.hashedApart_of_compiled`: compiled files with the same fingerprint have the same
  output.
-/

namespace ModuleBundler
namespace Generated

/-! ## Transcripts -/

/-- What the fingerprint is taken of: every tag, a NUL and the tag's text. -/
def transcript (entries : List (String × String)) : List Char :=
  entries.flatMap fun entry => entry.1.toList ++ '\x00' :: entry.2.toList

@[simp]
theorem transcript_nil : transcript [] = [] := rfl

@[simp]
theorem transcript_cons (tag text : String) (rest : List (String × String)) :
    transcript ((tag, text) :: rest) = tag.toList ++ '\x00' :: (text.toList ++ transcript rest) := by
  simp [transcript]

@[simp]
theorem transcript_append (front back : List (String × String)) :
    transcript (front ++ back) = transcript front ++ transcript back :=
  List.flatMap_append

theorem transcript_eq_nil_iff {entries : List (String × String)} :
    transcript entries = [] ↔ entries = [] := by
  cases entries with
  | nil => simp
  | cons entry rest => simp [transcript]

theorem push_nul (bytes : ByteArray) : bytes.push 0 = bytes ++ (String.singleton '\x00').toByteArray := by
  apply ByteArray.ext
  rw [ByteArray.data_push, ByteArray.data_append]
  rfl

/-- The bytes that the fingerprint is taken of are those of the transcript. -/
theorem fingerprintBytes_eq (generated : Generated) :
    generated.fingerprintBytes = (String.ofList (transcript generated.entries)).toByteArray := by
  have hfold : ∀ (entries : List (String × String)) (front : String),
      entries.foldl (fun bytes entry => (bytes ++ entry.1.toUTF8).push 0 ++ entry.2.toUTF8) front.toByteArray =
        (front ++ String.ofList (transcript entries)).toByteArray := by
    intro entries
    induction entries with
    | nil => simp
    | cons entry rest ih =>
      intro front
      obtain ⟨tag, text⟩ := entry
      have hentry : (front.toByteArray ++ tag.toUTF8).push 0 ++ text.toUTF8 =
          (front ++ tag ++ String.singleton '\x00' ++ text).toByteArray := by
        simp [push_nul]
      rw [List.foldl_cons, hentry, ih]
      congr 1
      apply String.toList_injective
      simp
  have hall := hfold generated.entries ""
  rwa [String.empty_append] at hall

theorem fingerprintBytes_eq_iff {a b : Generated} :
    a.fingerprintBytes = b.fingerprintBytes ↔ transcript a.entries = transcript b.entries := by
  rw [fingerprintBytes_eq, fingerprintBytes_eq, String.toByteArray_inj]
  constructor
  · intro h
    simpa using congrArg String.toList h
  · exact congrArg String.ofList

theorem eq_of_entries_eq {a b : Generated} (h : a.entries = b.entries) : a = b := by
  cases a
  cases h
  rfl

/-! ## Entries that cannot be told apart -/

/-- Whether the tags hold no NUL. -/
def PlainTags (entries : List (String × String)) : Prop :=
  ∀ entry ∈ entries, '\x00' ∉ entry.1.toList

/-- Whether a text of the second list swallows what the first one has behind it: the lists agree up to this
text, which goes on in the second list, and there is as much less to come behind it. -/
def Swallows (es fs : List (String × String)) : Prop :=
  ∃ (front es' fs' : List (String × String)) (tag text more : String), more ≠ "" ∧
    es = front ++ (tag, text) :: es' ∧ fs = front ++ (tag, text ++ more) :: fs' ∧
      transcript es' = more.toList ++ transcript fs'

theorem Swallows.cons {es fs : List (String × String)} (h : Swallows es fs) (entry : String × String) :
    Swallows (entry :: es) (entry :: fs) := by
  obtain ⟨front, es', fs', tag, text, more, hmore, rfl, rfl, heq⟩ := h
  exact ⟨entry :: front, es', fs', tag, text, more, hmore, rfl, rfl, heq⟩

theorem Swallows.transcript_eq {es fs : List (String × String)} (h : Swallows es fs) :
    transcript es = transcript fs := by
  obtain ⟨front, es', fs', tag, text, more, -, rfl, rfl, heq⟩ := h
  simp [heq]

/-- The first NUL ends the first tag. -/
theorem eq_of_append_nul {tag tag' rest rest' : List Char} (htag : '\x00' ∉ tag) (htag' : '\x00' ∉ tag')
    (h : tag ++ '\x00' :: rest = tag' ++ '\x00' :: rest') : tag = tag' ∧ rest = rest' := by
  rcases List.append_eq_append_iff.1 h with ⟨more, rfl, hmore⟩ | ⟨more, rfl, hmore⟩
  · cases more with
    | nil => simpa using hmore
    | cons c more =>
      cases hmore
      simp at htag'
  · cases more with
    | nil => simpa [eq_comm] using hmore
    | cons c more =>
      cases hmore
      simp at htag

/-- Where a text is longer in the second list, it swallows what the first list has behind it. -/
theorem swallows_of_longer {es fs : List (String × String)} {tag text text' : String} {more : List Char}
    (hne : text ≠ text') (htext : text'.toList = text.toList ++ more)
    (hrest : transcript es = more ++ transcript fs) : Swallows ((tag, text) :: es) ((tag, text') :: fs) := by
  have hlonger : text' = text ++ String.ofList more := by
    apply String.toList_injective
    simpa using htext
  subst hlonger
  refine ⟨[], es, fs, tag, text, String.ofList more, ?_, rfl, rfl, by simpa using hrest⟩
  intro hempty
  simp [hempty] at hne

/-- Entries have one transcript just if they are the same, or if a text of one list swallows what the other
one has behind it. -/
theorem transcript_eq_iff {es fs : List (String × String)} (hes : PlainTags es) (hfs : PlainTags fs) :
    transcript es = transcript fs ↔ es = fs ∨ Swallows es fs ∨ Swallows fs es := by
  constructor
  · intro h
    induction es generalizing fs with
    | nil => exact .inl (transcript_eq_nil_iff.1 h.symm).symm
    | cons entry es ih =>
      cases fs with
      | nil => exact absurd (transcript_eq_nil_iff.1 h) (List.cons_ne_nil _ _)
      | cons entry' fs =>
        obtain ⟨tag, text⟩ := entry
        obtain ⟨tag', text'⟩ := entry'
        obtain ⟨htag, htags⟩ := List.forall_mem_cons.1 hes
        obtain ⟨htag', htags'⟩ := List.forall_mem_cons.1 hfs
        rw [transcript_cons, transcript_cons] at h
        obtain ⟨hsame, hrest⟩ := eq_of_append_nul htag htag' h
        obtain rfl : tag = tag' := String.toList_injective hsame
        by_cases hne : text = text'
        · subst hne
          rcases ih htags htags' (List.append_cancel_left hrest) with rfl | hswallows | hswallows
          · exact .inl rfl
          · exact .inr (.inl (hswallows.cons _))
          · exact .inr (.inr (hswallows.cons _))
        · -- nothing ends the texts, so one of them is a front of the other
          rcases List.append_eq_append_iff.1 hrest with ⟨more, htext, hmore⟩ | ⟨more, htext, hmore⟩
          · exact .inr (.inl (swallows_of_longer hne htext hmore))
          · exact .inr (.inr (swallows_of_longer (Ne.symm hne) htext hmore))
  · rintro (rfl | h | h)
    · rfl
    · exact h.transcript_eq
    · exact h.transcript_eq.symm

/-- Something stands behind what is swallowed. -/
theorem Swallows.two_le_length {es fs : List (String × String)} (h : Swallows es fs) : 2 ≤ es.length := by
  obtain ⟨front, es', fs', tag, text, more, hmore, rfl, -, heq⟩ := h
  have hbehind : es' ≠ [] := by
    rintro rfl
    simp [hmore] at heq
  have hlength := List.length_pos_iff.2 hbehind
  simp only [List.length_append, List.length_cons]
  omega

/-- A text that swallows what stands behind it in a list of the same tags has swallowed a NUL. -/
theorem Swallows.exists_nul {es fs : List (String × String)} (h : Swallows es fs) (hplain : PlainTags es)
    (htags : es.map Prod.fst = fs.map Prod.fst) : ∃ entry ∈ fs, '\x00' ∈ entry.2.toList := by
  obtain ⟨front, es', fs', tag, text, more, hmore, rfl, rfl, heq⟩ := h
  refine ⟨(tag, text ++ more), by simp, ?_⟩
  by_contra hnul
  have hrest : es'.map Prod.fst = fs'.map Prod.fst := by simpa using htags
  cases es' with
  | nil => simp [hmore] at heq
  | cons entry es' =>
    cases fs' with
    | nil => simp at hrest
    | cons entry' fs' =>
      obtain ⟨next, behind⟩ := entry
      obtain ⟨next', behind'⟩ := entry'
      obtain rfl : next = next' := (List.cons.inj hrest).1
      have hnext : '\x00' ∉ next.toList := hplain (next, behind) (by simp)
      rw [transcript_cons, transcript_cons, ← List.append_assoc] at heq
      -- both lists have the same tag next, and the text ends with a part of it
      have hpart : '\x00' ∉ more.toList ++ next.toList := by
        simp_all
      have hsame := (eq_of_append_nul hnext hpart heq).1
      simp [hmore] at hsame

/-! ## Outputs that cannot be told apart -/

section

variable {a b : Generated}

/-- Which outputs are digested alike: besides equal ones, those of which one has a text that swallows what the
other one has behind it. -/
theorem eq_or_swallows (ha : PlainTags a.entries) (hb : PlainTags b.entries) :
    a.fingerprintBytes = b.fingerprintBytes ↔
      a = b ∨ Swallows a.entries b.entries ∨ Swallows b.entries a.entries := by
  have hentries : a.entries = b.entries ↔ a = b := ⟨eq_of_entries_eq, congrArg Table.entries⟩
  rw [fingerprintBytes_eq_iff, transcript_eq_iff ha hb, hentries]

/-- Outputs of the same kinds are told apart, unless a text holds a NUL. -/
theorem eq_of_keys_eq (ha : PlainTags a.entries) (hkeys : a.keys = b.keys)
    (hnul : ∀ entry ∈ a.entries, '\x00' ∉ entry.2.toList)
    (hnul' : ∀ entry ∈ b.entries, '\x00' ∉ entry.2.toList)
    (h : a.fingerprintBytes = b.fingerprintBytes) : a = b := by
  have hb : PlainTags b.entries := by
    intro entry hentry
    have hkey : entry.1 ∈ a.keys := hkeys ▸ List.mem_map_of_mem hentry
    obtain ⟨other, hother, heq⟩ := List.mem_map.1 hkey
    exact heq ▸ ha other hother
  rcases (eq_or_swallows ha hb).1 h with heq | hswallows | hswallows
  · exact heq
  · obtain ⟨entry, hentry, hmem⟩ := hswallows.exists_nul ha hkeys
    exact absurd hmem (hnul' entry hentry)
  · obtain ⟨entry, hentry, hmem⟩ := hswallows.exists_nul hb hkeys.symm
    exact absurd hmem (hnul entry hentry)

/-- Outputs of one kind are told apart. -/
theorem eq_of_length_le_one (ha : PlainTags a.entries) (hb : PlainTags b.entries)
    (hlength : a.entries.length ≤ 1) (hlength' : b.entries.length ≤ 1)
    (h : a.fingerprintBytes = b.fingerprintBytes) : a = b := by
  rcases (eq_or_swallows ha hb).1 h with heq | hswallows | hswallows
  · exact heq
  · exact absurd hswallows.two_le_length (by omega)
  · exact absurd hswallows.two_le_length (by omega)

/-- Which outputs have the same fingerprint: besides equal ones, those of which one has a text that swallows
what the other one has behind it.  For these the digested bytes are the same; for the digests to be the same
otherwise, they would have to collide. -/
theorem fingerprint_eq_iff (ha : PlainTags a.entries) (hb : PlainTags b.entries) :
    (a.fingerprintBytes = b.fingerprintBytes ↔
      a = b ∨ Swallows a.entries b.entries ∨ Swallows b.entries a.entries) ∧
    ((a.fingerprint = b.fingerprint → a.fingerprintBytes = b.fingerprintBytes) →
      (a.fingerprint = b.fingerprint ↔
        a = b ∨ Swallows a.entries b.entries ∨ Swallows b.entries a.entries)) := by
  refine ⟨eq_or_swallows ha hb, fun hfree => ?_⟩
  rw [← eq_or_swallows ha hb]
  exact ⟨hfree, congrArg Blake3.hex⟩

end

/-! ## A page with a script -/

/-- The output for a page with a script. -/
def page : Generated :=
  ⟨[("html", "<p>m"), ("js", "f()")], by decide⟩

/-- The output for the page with one letter less and a script that is a module. -/
def modulePage : Generated :=
  ⟨[("html", "<p>"), ("mjs", "f()")], by decide⟩

/-- The longer text of the page ends with the letter that the other page has next. -/
theorem swallows_page : Swallows modulePage.entries page.entries :=
  ⟨[], [("mjs", "f()")], [("js", "f()")], "html", "<p>", "m", by decide, rfl, rfl, by decide⟩

/-- Different outputs can be digested from the same bytes. -/
theorem exists_shared_transcript :
    ¬ ∀ a b : Generated, a ≠ b → a.fingerprintBytes ≠ b.fingerprintBytes := by
  intro h
  exact h modulePage page (by decide) (fingerprintBytes_eq_iff.2 swallows_page.transcript_eq)

/-- The two pages differ and have the same fingerprint. -/
theorem fingerprint_eq_iff_page :
    page ≠ modulePage ∧ PlainTags page.entries ∧ PlainTags modulePage.entries ∧
      page.fingerprintBytes = modulePage.fingerprintBytes ∧ page.fingerprint = modulePage.fingerprint := by
  have hpage : PlainTags page.entries := by
    unfold PlainTags
    decide
  have hmodule : PlainTags modulePage.entries := by
    unfold PlainTags
    decide
  obtain ⟨hbytes, hdigest⟩ := fingerprint_eq_iff hpage hmodule
  have hsame := hbytes.2 (.inr (.inr swallows_page))
  exact ⟨by decide, hpage, hmodule, hsame, (hdigest fun _ => hsame).2 (.inr (.inr swallows_page))⟩

end Generated

/-! ## Compiled files -/

/-- The path of a file that was read holds no NUL. -/
theorem FileTree.nul_not_mem_of_readText {tree : FileTree} {p : Path} {text : String}
    (h : tree.readText p = .ok text) : '\x00' ∉ p.text.toList := by
  obtain ⟨address, content, time, hfind, -⟩ := find_of_readText h
  have hlocate := find_eq_ok_iff.1 hfind
  intro hnul
  unfold locate at hlocate
  rw [if_pos (List.contains_iff_mem.2 hnul)] at hlocate
  cases hlocate

namespace Source

theorem nul_not_mem_kindOf {p : Path} (h : '\x00' ∉ p.text.toList) : '\x00' ∉ (kindOf p).tag.toList := by
  have hextension : '\x00' ∉ (extensionOf p).toList := by
    unfold extensionOf Path.foldedExtension
    cases hfound : p.extension? with
    | none => exact List.not_mem_nil
    | some extension =>
      obtain ⟨name, hname, hsplit⟩ := Option.bind_eq_some_iff.1 hfound
      intro hnul
      have hmem := (Path.of_splitName hsplit (Text.nul_mem_of_mem_lowercase hnul)).1
      apply h
      rw [Path.mem_text_iff (by decide) (by decide)]
      exact ⟨name, List.mem_of_getLast? (Path.getLast?_of_fileName? hname), hmem⟩
  unfold kindOf Family.outputKind
  split
  · decide
  · decide
  · decide
  · decide
  · exact hextension

/-- A file is compiled to output of one kind with a plain tag, and to the fingerprint of the output. -/
theorem hash_of_compileFile {tree : FileTree} {p : Path} {minify : Bool} {unit : CompiledUnit}
    (h : compileFile p minify (tree.readText p) = .ok unit) :
    unit.hash = unit.generated.fingerprint ∧ Generated.PlainTags unit.generated.entries ∧
      unit.generated.entries.length ≤ 1 := by
  obtain ⟨source, text, hsource, houtput, -⟩ := generated_of_compileFile h
  have hplain := nul_not_mem_kindOf (FileTree.nul_not_mem_of_readText hsource)
  rw [hsource] at h
  change compile p minify source = .ok unit at h
  unfold compile at h
  rw [houtput] at h
  cases h
  refine ⟨rfl, ?_, Nat.le_refl 1⟩
  intro entry hentry
  obtain rfl := List.mem_singleton.1 hentry
  exact hplain

end Source

namespace Packaging

/-- Whether every asset holds what some file was compiled to. -/
def Compiled (graph : AssetGraph) : Prop :=
  ∀ asset ∈ graph.live, ∃ (tree : FileTree) (p : Path) (minify : Bool) (unit : CompiledUnit),
    Source.compileFile p minify (tree.readText p) = .ok unit ∧
      asset.compiled = some unit.generated ∧ asset.hash = some unit.hash

/-- Compiled files with the same fingerprint have the same output.  The digests of the outputs at hand are
supposed not to collide. -/
theorem hashedApart_of_compiled {before after : AssetGraph}
    (hbefore : Compiled before) (hafter : Compiled after)
    (hfree : ∀ a ∈ before.live, ∀ b ∈ after.live, ∀ output output', a.compiled = some output →
      b.compiled = some output' → output.fingerprint = output'.fingerprint →
        output.fingerprintBytes = output'.fingerprintBytes) :
    HashedApart before after := by
  intro a ha b hb hsame
  obtain ⟨tree, p, minify, unit, hunit, hcompiled, hhash⟩ := hbefore a ha
  obtain ⟨tree', p', minify', unit', hunit', hcompiled', hhash'⟩ := hafter b hb
  obtain ⟨hdigest, hplain, hlength⟩ := Source.hash_of_compileFile hunit
  obtain ⟨hdigest', hplain', hlength'⟩ := Source.hash_of_compileFile hunit'
  rw [hhash, hhash', hdigest, hdigest', Option.some_inj] at hsame
  have hbytes := hfree a ha b hb _ _ hcompiled hcompiled' hsame
  rw [hcompiled, hcompiled', Generated.eq_of_length_le_one hplain hplain' hlength hlength' hbytes]

end Packaging
end ModuleBundler

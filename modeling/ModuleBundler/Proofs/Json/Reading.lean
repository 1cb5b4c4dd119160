import ModuleBundler.Json.Any

/-!
# What readers take from a text

A reader that succeeds takes characters from the front of a text and leaves the
others.  What it takes says nothing about where in the text it stands, so that
the pieces of a text can be put together as readers are put together.

Main results:

- Theorem {lit}`Json.Reads.bind`: readers in a row take one piece after the other.
- Theorem {lit}`Json.Rounds.reads`: a loop takes what its rounds take.
- Theorem {lit}`Json.rounds_of_items`: a loop over items that commas separate takes them all.
-/

namespace ModuleBundler
namespace Json

universe u v

variable {α β σ : Type} {ι : Type u} {κ : Type v} {taken more after : List Char}

/-! ## Pieces of a text -/

/-- In front of {lit}`after`, the reader takes {lit}`taken` and gives {lit}`a`, wherever they stand. -/
def Reads (reader : Reader α) (taken : List Char) (a : α) (after : List Char) : Prop :=
  ∀ line column size, (taken ++ after).length ≤ size →
    ∃ line' column',
      reader ⟨line, column, taken ++ after, size⟩ = (.ok a, ⟨line', column', after, size⟩)

namespace Reads

theorem pure (a : α) : Reads (Pure.pure a) [] a after :=
  fun line column _ _ => ⟨line, column, rfl⟩

/-- One reader goes on where the other one has stopped. -/
theorem run_run {reader : Reader α} {next : Reader β} {a : α} {b : β}
    (hreader : Reads reader taken a (more ++ after)) (hnext : Reads next more b after)
    (line column size : Nat) (hsize : (taken ++ more ++ after).length ≤ size) :
    ∃ between line' column', reader ⟨line, column, taken ++ more ++ after, size⟩ = (.ok a, between) ∧
      next between = (.ok b, ⟨line', column', after, size⟩) := by
  rw [List.append_assoc] at hsize ⊢
  obtain ⟨line₁, column₁, h₁⟩ := hreader line column size hsize
  have hmore : (more ++ after).length ≤ size := by
    rw [List.length_append] at hsize
    omega
  obtain ⟨line₂, column₂, h₂⟩ := hnext line₁ column₁ size hmore
  exact ⟨_, line₂, column₂, h₁, h₂⟩

theorem bind {reader : Reader α} {next : α → Reader β} {a : α} {b : β}
    (hreader : Reads reader taken a (more ++ after)) (hnext : Reads (next a) more b after) :
    Reads (reader >>= next) (taken ++ more) b after := by
  intro line column size hsize
  obtain ⟨between, line', column', h₁, h₂⟩ := hreader.run_run hnext line column size hsize
  refine ⟨line', column', ?_⟩
  rw [← h₂]
  simp only [Bind.bind, ExceptT.bind, ExceptT.mk, ExceptT.bindCont, StateT.bind, h₁]

/-- A reader that only looks ahead takes nothing. -/
theorem look_bind {reader : Reader α} {next : α → Reader β} {a : α} {b : β}
    (hreader : Reads reader [] a (taken ++ after)) (hnext : Reads (next a) taken b after) :
    Reads (reader >>= next) taken b after :=
  hreader.bind hnext

/-- Behind the last piece, a reader may do something that takes nothing. -/
theorem bind_last {reader : Reader α} {next : α → Reader β} {a : α} {b : β}
    (hreader : Reads reader taken a after) (hnext : Reads (next a) [] b after) :
    Reads (reader >>= next) taken b after := by
  have h : Reads (reader >>= next) (taken ++ []) b after := bind hreader hnext
  rwa [List.append_nil] at h

theorem map {reader : Reader α} {a : α} (f : α → β) (h : Reads reader taken a after) :
    Reads (f <$> reader) taken (f a) after := by
  rw [← bind_pure_comp]
  exact h.bind_last (pure _)

theorem located {reader : Reader α} {a : α} (h : Reads reader taken a after) :
    Reads (Reader.located reader) taken a after := by
  intro line column size hsize
  obtain ⟨line', column', h⟩ := h line column size hsize
  exact ⟨line', column', by simp only [Reader.located, h]⟩

theorem ended {reader : Reader α} {ending : Reader Unit} {a : α}
    (hreader : Reads reader taken a (more ++ after)) (hending : Reads ending more () after) :
    Reads (Reader.ended reader ending) (taken ++ more) a after := by
  intro line column size hsize
  obtain ⟨between, line', column', h₁, h₂⟩ := hreader.run_run hending line column size hsize
  exact ⟨line', column', by simp only [Reader.ended, h₁, h₂]⟩

theorem all {reader : Reader α} {a : α} {text : String} (h : Reads reader text.toList a []) :
    Reader.all reader text = .ok a := by
  have hend : Reads Reader.endOfText [] () [] := fun line column _ _ => ⟨line, column, rfl⟩
  have hwhole : Reads (do let a ← reader; Reader.endOfText; return a) text.toList a [] :=
    h.bind_last (hend.bind_last (pure a))
  obtain ⟨line, column, hrun⟩ := hwhole 1 0 text.length (by simp [String.length])
  rw [List.append_nil] at hrun
  exact congrArg Prod.fst hrun

end Reads

/-! ## Characters -/

/-- Behind a look at the cursor. -/
theorem Reads.get_bind {next : Cursor → Reader α} {a : α}
    (h : ∀ cursor : Cursor, cursor.rest = taken ++ after → Reads (next cursor) taken a after) :
    Reads (get >>= next) taken a after :=
  fun line column size hsize => h ⟨line, column, taken ++ after, size⟩ rfl line column size hsize

theorem reads_peek : Reads Reader.peek [] after.head? after :=
  fun line column _ _ => ⟨line, column, rfl⟩

theorem reads_skip (c : Char) : Reads Reader.skip [c] () after := by
  intro line column size _
  by_cases h : c = '\n'
  · exact ⟨line + 1, 0, congrArg (Prod.mk _) (if_pos h)⟩
  · exact ⟨line, column + c.utf8Size, congrArg (Prod.mk _) (if_neg h)⟩

/-- Whether a text begins with a character that is no white space. -/
def StartsToken (text : List Char) : Prop :=
  ∀ c ∈ text.head?, Reader.isSpace c = false

theorem startsToken_cons {c : Char} (h : Reader.isSpace c = false) (rest : List Char) :
    StartsToken (c :: rest) := by
  rintro _ ⟨⟩
  exact h

theorem reads_peekToken (h : StartsToken after) : Reads Reader.peekToken [] after.head? after := by
  refine Reads.look_bind (a := ()) ?_ reads_peek
  intro line column size _
  refine ⟨line, column, congrArg (Prod.mk _) ?_⟩
  cases after with
  | nil => rfl
  | cons c rest =>
    have hspace : Reader.isSpace c = false := h c rfl
    have hline : c ≠ '\n' := by
      rintro rfl
      exact absurd hspace (by decide)
    simp [Reader.skipSpaceFrom, hspace, hline]

/-- Behind a look at the next character. -/
theorem Reads.peek_bind {next : Option Char → Reader α} {a : α}
    (h : Reads (next (taken ++ after).head?) taken a after) :
    Reads (Reader.peek >>= next) taken a after :=
  reads_peek.look_bind h

/-- Behind a look at the next token. -/
theorem Reads.peekToken_bind {next : Option Char → Reader α} {a : α} (hstart : StartsToken (taken ++ after))
    (h : Reads (next (taken ++ after).head?) taken a after) :
    Reads (Reader.peekToken >>= next) taken a after :=
  (reads_peekToken hstart).look_bind h

/-- Behind a character read. -/
theorem Reads.skip_bind {next : Unit → Reader α} {c : Char} {a : α} (h : Reads (next ()) taken a after) :
    Reads (Reader.skip >>= next) (c :: taken) a after :=
  (reads_skip c).bind h

theorem reads_ident (letters : List Char) : Reads (Reader.ident letters) letters () after := by
  induction letters with
  | nil => exact .pure ()
  | cons c rest ih =>
    refine .peek_bind ?_
    simpa using Reads.skip_bind ih

/-! ## Loops -/

/-- The rounds of a loop from a state on: what they take and what the last one gives. -/
inductive Rounds (step : σ → Reader (σ ⊕ β)) : σ → List Char → β → List Char → Prop
  /-- The round that ends the loop. -/
  | last {state : σ} {taken after : List Char} {b : β} (h : Reads (step state) taken (.inr b) after) :
      Rounds step state taken b after
  /-- A round that takes something, and the rounds behind it. -/
  | next {state state' : σ} {taken more after : List Char} {b : β} (hne : taken ≠ [])
      (h : Reads (step state) taken (.inl state') (more ++ after)) (hmore : Rounds step state' more b after) :
      Rounds step state (taken ++ more) b after

namespace Rounds

variable {step : σ → Reader (σ ⊕ β)} {state : σ} {b : β}

/-- More rounds than characters are enough. -/
theorem reads_loop (h : Rounds step state taken b after) {rounds : Nat} (hrounds : taken.length < rounds) :
    Reads (Reader.loop step rounds state) taken b after := by
  induction h generalizing rounds with
  | last h =>
    obtain ⟨rounds, rfl⟩ := Nat.exists_eq_succ_of_ne_zero (Nat.ne_of_gt (Nat.zero_lt_of_lt hrounds))
    exact h.bind_last (.pure _)
  | @next state state' taken more after b hne h _ ih =>
    obtain ⟨rounds, rfl⟩ := Nat.exists_eq_succ_of_ne_zero (Nat.ne_of_gt (Nat.zero_lt_of_lt hrounds))
    have htaken : 0 < taken.length := List.length_pos_iff.2 hne
    have hfewer : more.length < rounds := by
      rw [List.length_append] at hrounds
      omega
    exact h.bind (ih hfewer)

/-- A loop takes what its rounds take, because its bound is the size of the whole text. -/
theorem reads (h : Rounds step state taken b after) :
    Reads (Reader.repeatFrom state step) taken b after := by
  intro line column size hsize
  have hrounds : taken.length < size + 1 := by
    rw [List.length_append] at hsize
    omega
  exact h.reads_loop hrounds line column size hsize

end Rounds

/-! ## Items and their separators -/

/-- Whether a text may follow a value: it is at its end, or a comma or a closing bracket comes. -/
def Follows (text : List Char) : Prop :=
  ∀ c ∈ text.head?, c = ',' ∨ c = ']' ∨ c = '\x7d'

theorem follows_nil : Follows [] := by
  simp [Follows]

theorem follows_comma (rest : List Char) : Follows (',' :: rest) := by
  rintro _ ⟨⟩
  exact .inl rfl

theorem follows_endList (rest : List Char) : Follows (']' :: rest) := by
  rintro _ ⟨⟩
  exact .inr (.inl rfl)

theorem follows_endTable (rest : List Char) : Follows ('\x7d' :: rest) := by
  rintro _ ⟨⟩
  exact .inr (.inr rfl)

/-- What stands in front of an item. -/
def separator (first : Bool) : List Char :=
  if first then [] else [',']

/-- Items with commas between them; {lit}`first` says that no item stands in front of them. -/
def joined (write : ι → List Char) : (first : Bool) → List ι → List Char
  | _, [] => []
  | first, item :: rest => separator first ++ write item ++ joined write false rest

theorem joined_map (write : κ → List Char) (f : ι → κ) (first : Bool) (items : List ι) :
    joined write first (items.map f) = joined (fun item => write (f item)) first items := by
  induction items generalizing first with
  | nil => rfl
  | cons item rest ih => rw [List.map_cons, joined, joined, ih]

/-- A loop that takes one item in each round takes all of them.  Its state is known from the
items that were read, so that what an item needs from those before it can be said. -/
theorem rounds_of_items {step : σ → Reader (σ ⊕ β)} {result : β} {items : List ι} (write : ι → List Char)
    (state : List ι → σ)
    (hitem : ∀ before item behind, items = before ++ item :: behind → ∀ after, Follows after →
      Reads (step (state before)) (separator before.isEmpty ++ write item)
        (.inl (state (before ++ [item]))) after)
    (hne : ∀ item ∈ items, write item ≠ [])
    (hlast : Reads (step (state items)) [] (.inr result) after) (hafter : Follows after) :
    Rounds step (state []) (joined write true items) result after := by
  suffices h : ∀ behind before, items = before ++ behind →
      Rounds step (state before) (joined write before.isEmpty behind) result after from h items [] rfl
  intro behind
  induction behind with
  | nil =>
    rintro before rfl
    rw [List.append_nil] at hlast
    exact .last hlast
  | cons item rest ih =>
    intro before heq
    have hrest := ih (before ++ [item]) (by simpa using heq)
    have hfirst : (before ++ [item]).isEmpty = false := by simp
    rw [hfirst] at hrest
    have hfollows : Follows (joined write false rest ++ after) := by
      cases rest with
      | nil => exact hafter
      | cons _ _ => exact follows_comma _
    have hmem : item ∈ items := heq ▸ List.mem_append_right _ List.mem_cons_self
    have htaken : separator before.isEmpty ++ write item ≠ [] := by simp [hne item hmem]
    exact .next htaken (hitem before item rest heq _ hfollows) hrest

/-- Whether a text begins as an item of a list does. -/
def StartsItem (text : List Char) : Prop :=
  ∃ c rest, text = c :: rest ∧ Reader.isSpace c = false ∧ c ≠ ']'

theorem StartsItem.ne_nil {text : List Char} (h : StartsItem text) : text ≠ [] := by
  obtain ⟨c, rest, rfl, -⟩ := h
  exact List.cons_ne_nil c rest

theorem reads_hasItem (h : StartsItem after) (first : Bool) :
    Reads (Reader.hasItem first) (separator first) true after := by
  obtain ⟨c, rest, rfl, hspace, hclose⟩ := h
  have hstart : StartsToken (c :: rest) := startsToken_cons hspace rest
  have hyes : Reads (return true) [] true (c :: rest) := .pure true
  cases first with
  | true =>
    refine .peekToken_bind hstart ?_
    simpa [separator, hclose] using hyes
  | false =>
    refine .peekToken_bind (startsToken_cons rfl _) ?_
    refine .skip_bind (.peekToken_bind hstart ?_)
    simpa [hclose] using hyes

theorem reads_hasMember (first : Bool) :
    Reads (Reader.hasMember first) (separator first) true ('"' :: after) := by
  have hstart : StartsToken ('"' :: after) := startsToken_cons rfl after
  cases first with
  | true => exact .peekToken_bind hstart (.pure true)
  | false =>
    refine .peekToken_bind (startsToken_cons rfl _) ?_
    exact .skip_bind (.peekToken_bind hstart (.pure true))

section Items

variable {item done : Reader α} {a : α} (first : Bool)

/-- Where an item comes, it is read behind its separator. -/
theorem Reads.hasItem_bind (hstart : StartsItem (taken ++ after)) (h : Reads item taken a after) :
    Reads (do if ← Reader.hasItem first then item else done) (separator first ++ taken) a after := by
  refine .bind (reads_hasItem hstart first) ?_
  exact h

theorem Reads.hasItem_end (h : Reads done [] a (']' :: after)) :
    Reads (do if ← Reader.hasItem first then item else done) [] a (']' :: after) := by
  refine .look_bind (a := false) ?_ h
  exact .peekToken_bind (startsToken_cons rfl _) (.pure false)

/-- Where a member comes, it is read behind its separator. -/
theorem Reads.hasMember_bind (h : Reads item ('"' :: taken) a after) :
    Reads (do if ← Reader.hasMember first then item else done) (separator first ++ '"' :: taken) a after := by
  refine .bind (reads_hasMember first) ?_
  exact h

theorem Reads.hasMember_end (h : Reads done [] a ('\x7d' :: after)) :
    Reads (do if ← Reader.hasMember first then item else done) [] a ('\x7d' :: after) := by
  refine .look_bind (a := false) ?_ h
  exact .peekToken_bind (startsToken_cons rfl _) (.pure false)

end Items

theorem reads_colon : Reads Reader.colon [':'] () after :=
  .peekToken_bind (startsToken_cons rfl _) (reads_skip ':')

theorem reads_endList : Reads Reader.endList [']'] () after :=
  .peekToken_bind (startsToken_cons rfl _) (reads_skip ']')

theorem reads_endTable : Reads Reader.endTable ['\x7d'] () after :=
  .peekToken_bind (startsToken_cons rfl _) (reads_skip '\x7d')

end Json
end ModuleBundler

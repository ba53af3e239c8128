import CountingLoops.Proofs.Styling

/-!
# Failures with the same text

The text of a failure marks the note by the word in front of it and escapes
nothing, so a message may hold what looks like a note. The text is read here
with its first mark as the mark of the note. A mark begins with a newline and
has no other, so it cannot begin within another mark, nor half in a message
and half in the mark behind it: the reading fails only where a whole mark is
in the message.
-/

namespace CountingLoops.Failure

/-! ## Lists cut at a mark -/

section

variable {α : Type} {mark : List α}

/-- A list and, if there is one, another list behind a mark. -/
def marked (mark before : List α) : Option (List α) → List α
  | none => before
  | some after => before ++ (mark ++ after)

theorem marked_cons (x : α) (before : List α) (after : Option (List α)) :
    marked mark (x :: before) after = x :: marked mark before after := by
  cases after <;> rfl

theorem isPrefix_marked (before : List α) (after : Option (List α)) :
    before <+: marked mark before after := by
  cases after with
  | none => exact List.prefix_rfl
  | some after => exact List.prefix_append _ _

/-- A mark whose first item is not repeated in it does not begin in front of
another one and end within it. -/
theorem not_isPrefix_append_mark {c x : α} {tail before : List α} (hc : c ∉ tail)
    (h : ¬ c :: tail <+: x :: before) (after : List α) :
    ¬ c :: tail <+: x :: before ++ (c :: tail ++ after) := by
  intro hmark
  rcases List.prefix_or_prefix_of_prefix hmark (List.prefix_append _ _) with hshort | hlong
  · exact h hshort
  · obtain ⟨rest, hrest⟩ := hlong
    rw [← hrest, List.prefix_append_right_inj] at hmark
    cases rest with
    | nil => exact h ⟨[], by rw [← hrest, List.append_nil, List.append_nil]⟩
    | cons y rest =>
      -- what is left of the mark would begin with the first item of the other
      obtain ⟨rfl, htail⟩ := List.cons_eq_cons.mp hrest
      obtain rfl : y = x := (List.cons_prefix_cons.mp hmark).1
      exact hc (htail ▸ List.mem_append_right before List.mem_cons_self)

variable [DecidableEq α]

/-- A list up to the first mark and what follows this mark, or all of the list
where it has no mark. -/
def cut (mark : List α) : List α → List α × Option (List α)
  | [] => ([], none)
  | x :: rest =>
    if mark <+: x :: rest then ([], some ((x :: rest).drop mark.length))
    else (x :: (cut mark rest).1, (cut mark rest).2)

/-- A cut loses nothing. -/
theorem marked_cut (l : List α) : marked mark (cut mark l).1 (cut mark l).2 = l := by
  induction l with
  | nil => rfl
  | cons x rest ih =>
    rw [cut]
    split
    next hmark => exact List.prefix_iff_eq_append.mp hmark
    next => rw [marked_cons, ih]

/-- The cut is made at the first mark. -/
theorem not_isInfix_cut (hmark : mark ≠ []) (l : List α) : ¬ mark <:+: (cut mark l).1 := by
  induction l with
  | nil =>
    intro h
    exact hmark (List.eq_nil_of_infix_nil h)
  | cons x rest ih =>
    rw [cut]
    split
    next =>
      intro h
      exact hmark (List.eq_nil_of_infix_nil h)
    next hnot =>
      intro h
      rcases List.infix_cons_iff.mp h with hfirst | hlater
      · have hlonger : x :: (cut mark rest).1 <+: x :: rest := by
          have hbegin : (cut mark rest).1 <+: marked mark (cut mark rest).1 (cut mark rest).2 :=
            isPrefix_marked _ _
          rw [marked_cut] at hbegin
          exact List.cons_prefix_cons.mpr ⟨rfl, hbegin⟩
        exact hnot (hfirst.trans hlonger)
      · exact ih hlater

/-- Without a mark in front of it, the mark of a list is found again. -/
theorem cut_marked {c : α} {tail before : List α} (hc : c ∉ tail)
    (h : ¬ c :: tail <:+: before) (after : Option (List α)) :
    cut (c :: tail) (marked (c :: tail) before after) = (before, after) := by
  induction before with
  | nil =>
    cases after with
    | none => rfl
    | some after => simp [marked, cut]
  | cons x before ih =>
    rw [List.infix_cons_iff, not_or] at h
    have hnot : ¬ c :: tail <+: x :: marked (c :: tail) before after := by
      cases after with
      | none => exact h.1
      | some after => exact not_isPrefix_append_mark hc h.1 after
    rw [marked_cons, cut, if_neg hnot, ih h.2]

end

/-! ## Texts of failures -/

/-- What stands between a message and a note. -/
def noteMark : List Char := "\nnote: ".toList

/-- The message holds what a text would have in front of a note. -/
def EmbedsNote (failure : Failure) : Prop := noteMark <:+: failure.message.toList

/-- The kind, told from the first character of a text. -/
def Kind.ofText (text : List Char) : Kind :=
  if text.head? = some 'b' then .brokenPipe else .inputOutput

theorem Kind.ofText_label_append (kind : Kind) (rest : List Char) :
    ofText (kind.label.toList ++ rest) = kind := by
  cases kind <;> rfl

/-- The failure with the given text that has as much of it in the note as can
be. -/
def ofText (text : String) : Failure :=
  let kind := Kind.ofText text.toList
  let parts := cut noteMark (text.toList.drop (kind.label ++ ": ").toList.length)
  ⟨kind, .ofList parts.1, parts.2.map .ofList⟩

theorem not_embedsNote_ofText (text : String) : ¬ (ofText text).EmbedsNote := by
  rw [EmbedsNote, ofText, String.toList_ofList]
  exact not_isInfix_cut (by decide) _

section

variable (failure : Failure)

theorem toList_text :
    failure.text.toList = (failure.kind.label ++ ": ").toList ++
      marked noteMark failure.message.toList (failure.note.map String.toList) := by
  obtain ⟨kind, message, note⟩ := failure
  cases note with
  | none =>
    simp only [text, noteText, String.append_empty, String.toList_append]
    rfl
  | some note =>
    have hmark : ("\n" ++ "note" ++ ": ").toList = noteMark := by decide
    simp only [text, noteText, marked, Option.map_some, ← hmark, String.toList_append,
      List.append_assoc]

/-- The text is cut right behind the label of the kind. -/
theorem ofText_text :
    ofText failure.text =
      let parts := cut noteMark
        (marked noteMark failure.message.toList (failure.note.map String.toList))
      ⟨failure.kind, .ofList parts.1, parts.2.map .ofList⟩ := by
  have hkind : Kind.ofText failure.text.toList = failure.kind := by
    rw [toList_text, String.toList_append, List.append_assoc]
    exact Kind.ofText_label_append _ _
  rw [ofText, hkind, toList_text, List.drop_left]

theorem kind_ofText_text : (ofText failure.text).kind = failure.kind := by
  rw [ofText_text]

/-- Read or not as it was meant, a failure keeps its text. -/
theorem text_ofText_text : (ofText failure.text).text = failure.text := by
  apply String.toList_inj.mp
  rw [toList_text, ofText_text, toList_text]
  simp [Function.comp_def, marked_cut]

end

section

variable {failure first second : Failure}

/-- A text is read as it was meant unless a mark is in the message. -/
theorem ofText_text_eq_self_iff : ofText failure.text = failure ↔ ¬ failure.EmbedsNote := by
  constructor
  · intro h
    rw [← h]
    exact not_embedsNote_ofText failure.text
  · intro h
    have hmark : noteMark = '\n' :: "note: ".toList := rfl
    have hnote : (failure.note.map String.toList).map String.ofList = failure.note := by
      simp [Function.comp_def]
    rw [EmbedsNote, hmark] at h
    rw [ofText_text, hmark, cut_marked (by decide) h]
    show (⟨failure.kind, _, _⟩ : Failure) = failure
    rw [String.ofList_toList, hnote]

theorem eq_of_text_eq (hfirst : ¬ first.EmbedsNote) (hsecond : ¬ second.EmbedsNote)
    (h : first.text = second.text) : first = second := by
  rw [← ofText_text_eq_self_iff.mpr hfirst, h, ofText_text_eq_self_iff.mpr hsecond]

end

/-- The message holds a mark if the text reads as that of another failure. -/
instance (failure : Failure) : Decidable failure.EmbedsNote :=
  decidable_of_iff (ofText failure.text ≠ failure)
    (by rw [ne_eq, ofText_text_eq_self_iff, Classical.not_not])

/-- What the texts of two failures tell of them. -/
structure Discernible (first second : Failure) : Prop where
  /-- The kind is told by every text. -/
  kind : first.text = second.text → first.kind = second.kind
  /-- Message and note are in doubt only if a message holds the mark of a note. -/
  doubt : first.text = second.text →
    (first.message = second.message ∧ first.note = second.note) ∨
      first.EmbedsNote ∨ second.EmbedsNote
  /-- Where none does, the text tells everything, also whether there is a note. -/
  text : ¬ first.EmbedsNote → ¬ second.EmbedsNote →
    (first.text = second.text ↔ first = second)
  /-- So does the text on a terminal without colour. -/
  terminal : ¬ first.EmbedsNote → ¬ second.EmbedsNote →
    (first.terminalText false = second.terminalText false ↔ first = second)
  /-- A mark in a message always leaves a doubt: another failure, with none in
  its message, has the same text. -/
  embedded : first.EmbedsNote →
    ∃ other : Failure, other ≠ first ∧ ¬ other.EmbedsNote ∧ other.text = first.text

/-- **Only a note embedded in a message makes a text ambiguous.** -/
theorem discernible (first second : Failure) : Discernible first second where
  kind h := by rw [← kind_ofText_text, h, kind_ofText_text]
  doubt h := by
    by_cases hfirst : first.EmbedsNote
    · exact .inr (.inl hfirst)
    by_cases hsecond : second.EmbedsNote
    · exact .inr (.inr hsecond)
    obtain rfl := eq_of_text_eq hfirst hsecond h
    exact .inl ⟨rfl, rfl⟩
  text hfirst hsecond := ⟨eq_of_text_eq hfirst hsecond, congrArg _⟩
  terminal hfirst hsecond := by
    refine ⟨?_, congrArg _⟩
    intro h
    rw [terminalText_false, terminalText_false, String.append_right_inj] at h
    exact eq_of_text_eq hfirst hsecond h
  embedded hembeds := by
    refine ⟨ofText first.text, ?_, not_embedsNote_ofText _, text_ofText_text first⟩
    intro hself
    exact ofText_text_eq_self_iff.mp hself hembeds

/-- A message that ends in most of a mark differs in its text from a message
with an empty note, by one blank. -/
theorem discernible_unfinished :
    let first : Failure := ⟨.inputOutput, "full\nnote:", none⟩
    let second : Failure := ⟨.inputOutput, "full", some ""⟩
    ¬ first.EmbedsNote ∧ ¬ second.EmbedsNote ∧ first.text ≠ second.text := by
  intro first second
  have hfirst : ¬ first.EmbedsNote := by decide
  have hsecond : ¬ second.EmbedsNote := by decide
  have hdiscernible := discernible first second
  exact ⟨hfirst, hsecond, mt (hdiscernible.text hfirst hsecond).mp (by decide)⟩

/-- The rest of that mark in front of the note makes a text that may also have
the whole mark in its message. -/
example :
    let half : Failure := ⟨.inputOutput, "full\nnote:", some "\nnote: no"⟩
    let whole : Failure := ⟨.inputOutput, "full\nnote:\nnote: ", some "no"⟩
    half.text = whole.text ∧ ofText whole.text = half := by
  decide

end CountingLoops.Failure

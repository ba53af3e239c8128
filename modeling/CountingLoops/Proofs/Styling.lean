import CountingLoops.Failure.Terminal

/-!
# Plain and coloured text

The text of a failure on a terminal beside its plain text. Colour changes two
labels in their places and nothing else, whatever stands around them; without
colour the two texts differ by the word in front alone. Where neither message
nor note could pass for an escape sequence, deleting these sequences brings
the plain text back.
-/

namespace CountingLoops.Failure

/-! ## Replacing and deleting -/

/-- `result` is `text` with the `old` at `place` replaced by `new`. -/
def Replaced (text : String) (place : Nat) (old new result : String) : Prop :=
  ∃ before after, before.length = place ∧ text = before ++ old ++ after ∧
    result = before ++ new ++ after

/-- The character with which every escape sequence begins. -/
def escape : Char := '\x1b'

/-- A text without the sequences that begin a bold colour or end a style. -/
def unstyled : List Char → List Char
  | '\x1b' :: '[' :: '1' :: ';' :: '3' :: '1' :: 'm' :: rest => unstyled rest
  | '\x1b' :: '[' :: '1' :: ';' :: '3' :: '4' :: 'm' :: rest => unstyled rest
  | '\x1b' :: '[' :: '0' :: 'm' :: rest => unstyled rest
  | c :: rest => c :: unstyled rest
  | [] => []

theorem unstyled_cons_of_ne {c : Char} (h : c ≠ escape) (rest : List Char) :
    unstyled (c :: rest) = c :: unstyled rest := by
  rw [unstyled] <;> intro _ hc <;> exact absurd hc h

/-- What holds no escape character stays as it is. -/
theorem unstyled_append {l : List Char} (h : escape ∉ l) (rest : List Char) :
    unstyled (l ++ rest) = l ++ unstyled rest := by
  induction l with
  | nil => rfl
  | cons c l ih =>
    rw [List.mem_cons, not_or] at h
    rw [List.cons_append, unstyled_cons_of_ne (Ne.symm h.1), ih h.2, List.cons_append]

theorem unstyled_eq_self {l : List Char} (h : escape ∉ l) : unstyled l = l := by
  have hnil := unstyled_append h []
  rwa [List.append_nil, unstyled, List.append_nil] at hnil

/-- A label loses its style. -/
theorem unstyled_paint (coloured : Bool) (colour : Colour) {label : String}
    (h : escape ∉ label.toList) (rest : List Char) :
    unstyled ((paint coloured colour label).toList ++ rest) = label.toList ++ unstyled rest := by
  cases coloured with
  | false => exact unstyled_append h rest
  | true =>
    have hlabel := unstyled_append h ("\x1b[0m".toList ++ rest)
    cases colour <;> simpa [paint, bold, Colour.code, unstyled] using hlabel

/-! ## The text on a terminal -/

/-- `result` is the plain text of a failure behind a word, with this word in
red and, if there is a note, with the label that follows the newline after the
message in blue. The label comes first: its place is that in the plain text. -/
def Recoloured (failure : Failure) (result : String) : Prop :=
  ∃ middle,
    (match failure.note with
      | none => middle = "error: " ++ failure.text
      | some _ => Replaced ("error: " ++ failure.text)
          ("error: " ++ failure.kind.label ++ ": " ++ failure.message ++ "\n").length
          "note" "\x1b[1;34mnote\x1b[0m" middle) ∧
      Replaced middle 0 "error" "\x1b[1;31merror\x1b[0m" result

/-- The text of a failure on a terminal that shows colour or not, after choices
of it in order. -/
structure Styled (failure : Failure) (shown : Bool) (choices : List Bool) : Prop where
  /-- The last choice counts; without any, colour is chosen. -/
  effect : isColoured shown choices = true ↔
    shown = true ∧ ∀ last, choices.getLast? = some last → last = true
  /-- Without colour the text is the plain one behind a word. -/
  plain : isColoured shown choices = false →
    failure.terminalText (isColoured shown choices) = "error: " ++ failure.text
  /-- With colour two labels are replaced, and nothing else. -/
  coloured : isColoured shown choices = true →
    failure.Recoloured (failure.terminalText (isColoured shown choices))
  /-- What is replaced can be deleted again. -/
  erased : escape ∉ failure.message.toList → (∀ note ∈ failure.note, escape ∉ note.toList) →
    unstyled (failure.terminalText (isColoured shown choices)).toList =
      ("error: " ++ failure.text).toList

section

variable (failure : Failure)

theorem isColoured_iff (shown : Bool) (choices : List Bool) :
    isColoured shown choices = true ↔
      shown = true ∧ ∀ last, choices.getLast? = some last → last = true := by
  rw [isColoured, Bool.and_eq_true, List.getLastD_eq_getLast?]
  cases choices.getLast? with
  | none => simp
  | some last => simp

theorem terminalText_false : failure.terminalText false = "error: " ++ failure.text := by
  simp [terminalText, paint, text, String.append_assoc]

theorem recoloured_terminalText : failure.Recoloured (failure.terminalText true) := by
  have hred : bold .red "error" = "\x1b[1;31merror\x1b[0m" := by decide
  have hblue : bold .blue "note" = "\x1b[1;34mnote\x1b[0m" := by decide
  have herror : "error: " = "error" ++ ": " := by decide
  obtain ⟨kind, message, note⟩ := failure
  let head := ": " ++ kind.label ++ ": " ++ message
  cases note with
  | none =>
    refine ⟨_, rfl, "", head, rfl, ?_, ?_⟩
    · simp only [head, text, noteText, herror, String.empty_append, String.append_empty,
        String.append_assoc]
    · simp only [head, terminalText, paint, if_true, noteText, hred, String.empty_append,
        String.append_empty, String.append_assoc]
  | some note =>
    let lead := "error: " ++ kind.label ++ ": " ++ message ++ "\n"
    let tail := "\x1b[1;34mnote\x1b[0m" ++ (": " ++ note)
    refine ⟨lead ++ tail, ⟨lead, ": " ++ note, rfl, ?_, ?_⟩,
      "", head ++ "\n" ++ tail, rfl, ?_, ?_⟩
    · simp only [lead, text, noteText, String.append_assoc]
    · simp only [tail, String.append_assoc]
    · simp only [lead, head, herror, String.empty_append, String.append_assoc]
    · simp only [head, tail, terminalText, paint, if_true, noteText, hred, hblue,
        String.empty_append, String.append_assoc]

theorem escape_notMem_label (kind : Kind) : escape ∉ kind.label.toList := by
  cases kind <;> decide

theorem unstyled_terminalText (coloured : Bool) (hmessage : escape ∉ failure.message.toList)
    (hnote : ∀ note ∈ failure.note, escape ∉ note.toList) :
    unstyled (failure.terminalText coloured).toList = ("error: " ++ failure.text).toList := by
  have hkind := escape_notMem_label failure.kind
  have hcolon : escape ∉ ": ".toList := by decide
  -- the text is made of labels, which lose their style, and of texts without escapes
  simp only [terminalText, String.toList_append, List.append_assoc]
  rw [unstyled_paint coloured .red (by decide), unstyled_append hcolon, unstyled_append hkind,
    unstyled_append hcolon, unstyled_append hmessage]
  cases hfailure : failure.note with
  | none => simp [text, noteText, hfailure, unstyled]
  | some note =>
    have hrest := unstyled_eq_self (hnote note hfailure)
    simp only [noteText, String.toList_append, List.append_assoc]
    rw [unstyled_append (by decide), unstyled_paint coloured .blue (by decide),
      unstyled_append hcolon, hrest]
    simp [text, noteText, hfailure]

end

/-- **Plain and coloured text say the same**, for any failure and any choices. -/
theorem styled_terminalText (failure : Failure) (shown : Bool) (choices : List Bool) :
    Styled failure shown choices where
  effect := isColoured_iff shown choices
  plain h := by rw [h, terminalText_false]
  coloured h := by
    rw [h]
    exact failure.recoloured_terminalText
  erased hmessage hnote := failure.unstyled_terminalText _ hmessage hnote

/-- Words like the labels in the message and the note are left alone. -/
theorem styled_terminalText_labels :
    let failure : Failure := ⟨.inputOutput, "error: full\nnote: no", some "error\nnote"⟩
    isColoured true [false, true] = true ∧
      failure.terminalText (isColoured true [false, true]) =
        "\x1b[1;31merror\x1b[0m: I/O error: error: full\nnote: no\n" ++
          "\x1b[1;34mnote\x1b[0m: error\nnote" ∧
      unstyled (failure.terminalText (isColoured true [false, true])).toList =
        "error: I/O error: error: full\nnote: no\nnote: error\nnote".toList := by
  intro failure
  have hstyled := styled_terminalText failure true [false, true]
  exact ⟨by decide, by decide, hstyled.erased (by decide) (by decide)⟩

end CountingLoops.Failure

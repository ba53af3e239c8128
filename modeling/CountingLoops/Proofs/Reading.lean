import CountingLoops.Proofs.Text

/-!
# Reading a report back

The text of a report has no marks between its phases and none around its
lines but newlines. It can be read back all the same: no line holds a newline,
so the lines are found again, and the first character of a line tells which
phase it belongs to. A verdict is read by its first colon, since no label
holds one.
-/

namespace CountingLoops

/-! ## Lists behind separators -/

section

variable {α : Type} {c : α}

/-- Parts of a list, each followed by `c`. -/
def terminated (c : α) (parts : List (List α)) : List α := parts.flatMap (· ++ [c])

/-- The first separator of a list is the first one of every longer list. -/
theorem eq_of_append_cons_isPrefix {l m x y : List α} (hl : c ∉ l) (hm : c ∉ m)
    (h : l ++ c :: x <+: m ++ c :: y) : l = m ∧ x <+: y := by
  induction l generalizing m with
  | nil =>
    cases m with
    | nil => exact ⟨rfl, (List.cons_prefix_cons.mp h).2⟩
    | cons b m =>
      obtain ⟨rfl, -⟩ := List.cons_prefix_cons.mp h
      exact absurd List.mem_cons_self hm
  | cons a l ih =>
    cases m with
    | nil =>
      obtain ⟨rfl, -⟩ := List.cons_prefix_cons.mp h
      exact absurd List.mem_cons_self hl
    | cons b m =>
      obtain ⟨rfl, hrest⟩ := List.cons_prefix_cons.mp h
      obtain ⟨rfl, hprefix⟩ := ih (mt (List.mem_cons_of_mem _) hl)
        (mt (List.mem_cons_of_mem _) hm) hrest
      exact ⟨rfl, hprefix⟩

theorem append_cons_inj {l m x y : List α} (hl : c ∉ l) (hm : c ∉ m)
    (h : l ++ c :: x = m ++ c :: y) : l = m ∧ x = y := by
  obtain ⟨rfl, -⟩ := eq_of_append_cons_isPrefix hl hm ⟨[], by simpa using h⟩
  exact ⟨rfl, by simpa using h⟩

/-- Parts without the separator are found again, also in a longer list. -/
theorem isPrefix_of_terminated {first second : List (List α)} (hfirst : ∀ part ∈ first, c ∉ part)
    (hsecond : ∀ part ∈ second, c ∉ part) (h : terminated c first <+: terminated c second) :
    first <+: second := by
  induction first generalizing second with
  | nil => exact List.nil_prefix
  | cons part first ih =>
    cases second with
    | nil => simp [terminated] at h
    | cons other second =>
      rw [List.forall_mem_cons] at hfirst hsecond
      have hcut : part ++ c :: terminated c first <+: other ++ c :: terminated c second := by
        simpa [terminated] using h
      obtain ⟨rfl, hrest⟩ := eq_of_append_cons_isPrefix hfirst.1 hsecond.1 hcut
      exact List.cons_prefix_cons.mpr ⟨rfl, ih hfirst.2 hsecond.2 hrest⟩

theorem terminated_inj {first second : List (List α)} (hfirst : ∀ part ∈ first, c ∉ part)
    (hsecond : ∀ part ∈ second, c ∉ part) (h : terminated c first = terminated c second) :
    first = second := by
  have hle := isPrefix_of_terminated hfirst hsecond ⟨[], by simpa using h⟩
  have hge := isPrefix_of_terminated hsecond hfirst ⟨[], by simpa using h.symm⟩
  exact hle.eq_of_length_le hge.length_le

end

/-! ## Lines -/

/-- Different texts have different encodings. -/
theorem encode_injective {first second : String} (h : encode first = encode second) :
    first = second := by
  have hencode : first.toList.utf8Encode = second.toList.utf8Encode :=
    congrArg List.toByteArray h
  rw [String.utf8Encode_toList, String.utf8Encode_toList] at hencode
  exact String.toByteArray_inj.mp hencode

theorem toList_decimal (n : UInt32) : (decimal n).toList = Nat.toDigits 10 n.toNat :=
  Nat.toList_repr

theorem decimal_injective {m n : UInt32} (h : decimal m = decimal n) : m = n := by
  have hdigits := congrArg String.toList h
  rw [toList_decimal, toList_decimal] at hdigits
  have hvalue := congrArg (Nat.ofDigitChars 10 · 0) hdigits
  simpa [Nat.ofDigitChars_ten_toDigits, UInt32.toNat_inj] using hvalue

theorem Divisibility.label_injective {d e : Divisibility} (h : d.label = e.label) : d = e := by
  cases d <;> cases e
  all_goals first
    | rfl
    | exact absurd h (by decide)

theorem Divisibility.colon_notMem_label (d : Divisibility) : ':' ∉ d.label.toList := by
  cases d <;> decide

theorem Verdict.toList_text (v : Verdict) :
    v.text.toList = v.rule.label.toList ++ ':' :: ' ' :: (decimal v.value).toList := by
  simp [text]

/-- A verdict is split at its colon into the label and the number. -/
theorem Verdict.text_injective {v w : Verdict} (h : v.text = w.text) : v = w := by
  have hlist := congrArg String.toList h
  rw [toList_text, toList_text] at hlist
  obtain ⟨hlabel, hvalue⟩ :=
    append_cons_inj v.rule.colon_notMem_label w.rule.colon_notMem_label hlist
  have hrule : v.rule = w.rule := Divisibility.label_injective (String.toList_inj.mp hlabel)
  have hnumber : v.value = w.value :=
    decimal_injective (String.toList_inj.mp (List.cons_inj_right _ |>.mp hvalue))
  obtain ⟨value, rule⟩ := v
  obtain rfl : rule = w.rule := hrule
  obtain rfl : value = w.value := hnumber
  rfl

/-- The phase of a line, told from its first character. -/
def Phase.ofLine (line : String) : Phase :=
  match line.toList.head? with
  | none => .classification
  | some c => if c.isDigit then .ascending else if c = 't' then .fixedCount else .classification

theorem Phase.ofLine_decimal (n : UInt32) : ofLine (decimal n) = .ascending := by
  have hne : Nat.toDigits 10 n.toNat ≠ [] := Nat.toDigits_ne_nil
  obtain ⟨c, digits, hdigits⟩ := List.exists_cons_of_ne_nil hne
  have hc : c.isDigit = true :=
    Nat.isDigit_of_mem_toDigits (by decide) (by decide) (hdigits ▸ List.mem_cons_self)
  simp [ofLine, toList_decimal, hdigits, hc]

theorem Phase.ofLine_text (v : Verdict) : ofLine v.text = .classification := by
  rw [ofLine, v.toList_text]
  cases v.rule <;> rfl

/-! ## Reports -/

namespace Report

/-- The text of a report, with a newline after each line. -/
def text (report : Report) : String := String.join (report.lines.map (· ++ "\n"))

theorem toList_text (report : Report) :
    report.text.toList = terminated '\n' (report.lines.map String.toList) := by
  simp [text, terminated, List.flatMap_map]

/-- The bytes of a report are its text in UTF-8. -/
theorem encode_text (report : Report) : encode report.text = report.bytes := by
  simp [encode, text, bytes, List.flatMap_map, List.flatMap_assoc]

section

variable {report : Report}

theorem Marked.newline_notMem_lines (h : report.Marked) :
    ∀ part ∈ report.lines.map String.toList, '\n' ∉ part := by
  intro part hmem
  obtain ⟨line, hline, rfl⟩ := List.mem_map.mp hmem
  obtain ⟨phase, -, hphase⟩ := List.mem_flatMap.mp hline
  exact h.newline_notMem hphase

/-- The first character of a line tells its phase. -/
theorem Marked.ofLine_eq (h : report.Marked) {phase : Phase} {line : String}
    (hline : line ∈ report.phaseLines phase) : Phase.ofLine line = phase := by
  cases phase with
  | ascending =>
    obtain ⟨n, -, rfl⟩ := List.mem_map.mp hline
    exact Phase.ofLine_decimal n
  | fixedCount =>
    rw [h line hline]
    rfl
  | classification =>
    obtain ⟨v, -, rfl⟩ := List.mem_map.mp hline
    exact Phase.ofLine_text v

/-- The lines of a phase are found again among all lines. -/
theorem Marked.filter_lines (h : report.Marked) (phase : Phase) :
    report.lines.filter (Phase.ofLine · = phase) = report.phaseLines phase := by
  have hsame : (report.phaseLines phase).filter (Phase.ofLine · = phase) =
      report.phaseLines phase := by
    apply List.filter_eq_self.mpr
    intro line hline
    simpa using h.ofLine_eq hline
  have hother : ∀ other ≠ phase,
      (report.phaseLines other).filter (Phase.ofLine · = phase) = [] := by
    intro other hne
    apply List.filter_eq_nil_iff.mpr
    intro line hline
    simpa [h.ofLine_eq hline] using hne
  cases phase <;> simp [lines_eq, hsame, hother]

end

theorem eq_of_phaseLines_eq {first second : Report}
    (h : ∀ phase, first.phaseLines phase = second.phaseLines phase) : first = second := by
  have hvalues : first.values = second.values :=
    (List.map_inj_right fun _ _ => decimal_injective).mp (h .ascending)
  have hmarkers : first.markers = second.markers := h .fixedCount
  have hverdicts : first.verdicts = second.verdicts :=
    NonemptyList.toList_inj.mp
      ((List.map_inj_right fun _ _ => Verdict.text_injective).mp (h .classification))
  obtain ⟨values, markers, verdicts⟩ := first
  obtain rfl : values = second.values := hvalues
  obtain rfl : markers = second.markers := hmarkers
  obtain rfl : verdicts = second.verdicts := hverdicts
  rfl

/-- What the texts of two reports tell of them. -/
structure Legible (first second : Report) : Prop where
  /-- Newlines only end lines. -/
  newline : ∀ line ∈ first.lines ++ second.lines, '\n' ∉ line.toList
  /-- Numbers, markers and verdicts do not look alike. -/
  apart : ∀ phase other line, line ∈ first.phaseLines phase → line ∈ second.phaseLines other →
    phase = other
  verdict : ∀ v w : Verdict, v.text = w.text → v = w
  /-- So a text has one division into lines, -/
  lines : first.text = second.text → first.lines = second.lines
  /-- the lines have one division into phases, -/
  phases : first.lines = second.lines → ∀ phase, first.phaseLines phase = second.phaseLines phase
  /-- and the phases have one report. -/
  report : first.text = second.text → first = second
  /-- The bytes that reach a sink tell as much. -/
  bytes : first.bytes = second.bytes → first = second

section

variable {first second : Report}

theorem lines_eq_of_text_eq (hfirst : first.Marked) (hsecond : second.Marked)
    (h : first.text = second.text) : first.lines = second.lines := by
  have hlist := congrArg String.toList h
  rw [toList_text, toList_text] at hlist
  have hlines := terminated_inj hfirst.newline_notMem_lines hsecond.newline_notMem_lines hlist
  exact (List.map_inj_right fun _ _ => String.toList_inj.mp).mp hlines

theorem phaseLines_eq_of_lines_eq (hfirst : first.Marked) (hsecond : second.Marked)
    (h : first.lines = second.lines) (phase : Phase) :
    first.phaseLines phase = second.phaseLines phase := by
  rw [← hfirst.filter_lines, ← hsecond.filter_lines, h]

end

/-- **The console text determines the report**, for any numbers, any number of
markers and any verdicts, true or not. -/
theorem legible_of_marked (first second : Report) (hfirst : first.Marked)
    (hsecond : second.Marked) : Legible first second := by
  have hphases := fun h => phaseLines_eq_of_lines_eq hfirst hsecond h
  have hreport (h : first.text = second.text) : first = second :=
    eq_of_phaseLines_eq (hphases (lines_eq_of_text_eq hfirst hsecond h))
  refine ⟨?_, ?_, fun _ _ => Verdict.text_injective,
    lines_eq_of_text_eq hfirst hsecond, hphases, hreport, ?_⟩
  · intro line hline
    rcases List.mem_append.mp hline with hline | hline
    · exact hfirst.newline_notMem_lines _ (List.mem_map_of_mem hline)
    · exact hsecond.newline_notMem_lines _ (List.mem_map_of_mem hline)
  · intro phase other line hline hother
    rw [← hfirst.ofLine_eq hline, hsecond.ofLine_eq hother]
  · intro h
    rw [← encode_text, ← encode_text] at h
    exact hreport (encode_injective h)

/-- The number five among the values is no marker and no verdict on five, true
or false. -/
theorem legible_of_marked_five :
    let first : Report := ⟨[5, 5, 3], [], ⟨⟨5, .byThree⟩, []⟩⟩
    let second : Report := ⟨[5], [marker, marker], ⟨⟨5, .byFive⟩, [⟨3, .neither⟩]⟩⟩
    first.Marked ∧ second.Marked ∧ Legible first second ∧ first.text ≠ second.text := by
  intro first second
  have hfirst : first.Marked := nofun
  have hsecond : second.Marked := by
    intro text hmem
    simpa [second] using hmem
  have hlegible := legible_of_marked first second hfirst hsecond
  exact ⟨hfirst, hsecond, hlegible, fun h => absurd (hlegible.report h) (by decide)⟩

end Report

end CountingLoops

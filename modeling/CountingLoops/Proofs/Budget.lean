import CountingLoops.Sink.Budgeted

/-!
# What budgets pay for

Of a text, budgets for lines and for bytes pay for a beginning. `affordable`
finds it byte by byte, as a sink would that is offered single bytes, and
`longest_affordable` says what it is without any order of events: the longest
beginning with not too many bytes that ends no later than the last line that
is paid for.
-/

namespace CountingLoops

namespace Limit

@[simp] theorem spend_zero (limit : Limit) : limit.spend 0 = limit := by
  cases limit <;> rfl

theorem spend_spend (limit : Limit) (first second : Nat) :
    (limit.spend first).spend second = limit.spend (first + second) := by
  cases limit with
  | unlimited => rfl
  | upTo units => simp [spend, Nat.sub_sub]

@[simp] theorem admits_zero (limit : Limit) : limit.admits 0 = true := by
  cases limit <;> simp [admits]

theorem admits_succ_iff (limit : Limit) (n : Nat) :
    limit.admits (n + 1) = true ↔ limit.isSpent = false ∧ (limit.spend 1).admits n = true := by
  cases limit with
  | unlimited => simp [admits, isSpent, spend]
  | upTo units =>
    simp only [admits, isSpent, spend, decide_eq_true_eq, beq_eq_false_iff_ne]
    omega

theorem admits_clip (limit : Limit) (n : Nat) : limit.admits (limit.clip n) = true := by
  cases limit with
  | unlimited => rfl
  | upTo units => exact decide_eq_true (Nat.min_le_left units n)

end Limit

namespace Budgeted

/-- The budgets pay for all of a text: it has not too many bytes, and at each
of its bytes some line is left. -/
structure Within (lines bytes : Limit) (text : List UInt8) : Prop where
  bytes : bytes.admits text.length = true
  lines : ∀ before byte, before ++ [byte] <+: text →
    (lines.spend (before.count newline)).isSpent = false

/-- The beginning of a text that budgets pay for, byte by byte. -/
def affordable : Limit → Limit → List UInt8 → List UInt8
  | _, _, [] => []
  | lines, bytes, byte :: text =>
    if lines.isSpent || bytes.isSpent then []
    else byte :: affordable (lines.spend ([byte].count newline)) (bytes.spend 1) text

/-- The longest beginning of a text with a property. -/
structure LongestPrefix (Holds : List UInt8 → Prop) (text part : List UInt8) : Prop where
  isPrefix : part <+: text
  holds : Holds part
  longest : ∀ other, other <+: text → Holds other → other.length ≤ part.length

theorem within_nil (lines bytes : Limit) : Within lines bytes [] := by
  refine ⟨bytes.admits_zero, ?_⟩
  intro before byte h
  simp at h

/-- The first byte costs one byte, and one line if it is a newline. -/
theorem within_cons_iff (lines bytes : Limit) (byte : UInt8) (text : List UInt8) :
    Within lines bytes (byte :: text) ↔
      lines.isSpent = false ∧ bytes.isSpent = false ∧
        Within (lines.spend ([byte].count newline)) (bytes.spend 1) text := by
  constructor
  · rintro ⟨hbytes, hlines⟩
    obtain ⟨hleft, hrest⟩ := (bytes.admits_succ_iff text.length).mp hbytes
    refine ⟨by simpa using hlines [] byte (by simp), hleft, hrest, ?_⟩
    intro before next h
    rw [Limit.spend_spend, ← List.count_append]
    exact hlines (byte :: before) next (List.cons_prefix_cons.mpr ⟨rfl, h⟩)
  · rintro ⟨hline, hleft, hbytes, hlines⟩
    refine ⟨(bytes.admits_succ_iff text.length).mpr ⟨hleft, hbytes⟩, ?_⟩
    intro before next h
    cases before with
    | nil => simpa using hline
    | cons first before =>
      obtain ⟨rfl, hrest⟩ := List.cons_prefix_cons.mp h
      have hspent := hlines before next hrest
      rwa [Limit.spend_spend, ← List.count_append] at hspent

theorem affordable_cons_of_spent {lines bytes : Limit} (h : (lines.isSpent || bytes.isSpent) = true)
    (text : List UInt8) : affordable lines bytes text = [] := by
  cases text with
  | nil => rfl
  | cons byte text => simp [affordable, h]

/-- **What is affordable is the longest beginning that the budgets pay for.** -/
theorem longest_affordable (lines bytes : Limit) (text : List UInt8) :
    LongestPrefix (Within lines bytes) text (affordable lines bytes text) := by
  induction text generalizing lines bytes with
  | nil =>
    refine ⟨List.prefix_refl _, within_nil lines bytes, ?_⟩
    intro other hother _
    rw [List.prefix_nil.mp hother]
    exact Nat.zero_le _
  | cons byte text ih =>
    obtain ⟨hpre, hholds, hlongest⟩ := ih (lines.spend ([byte].count newline)) (bytes.spend 1)
    rw [affordable]
    split
    next hspent =>
      -- any byte at all would have to be paid for with a spent budget
      refine ⟨List.nil_prefix, within_nil lines bytes, ?_⟩
      intro other hother hwithin
      cases other with
      | nil => exact Nat.le_refl _
      | cons first other =>
        obtain ⟨hline, hleft, -⟩ := (within_cons_iff _ _ _ _).mp hwithin
        simp [hline, hleft] at hspent
    next hspent =>
      have hleft : lines.isSpent = false ∧ bytes.isSpent = false := by simpa using hspent
      -- the first byte is paid for, and a rival shares it, so the tails compare
      refine ⟨List.cons_prefix_cons.mpr ⟨rfl, hpre⟩,
        (within_cons_iff _ _ _ _).mpr ⟨hleft.1, hleft.2, hholds⟩, ?_⟩
      intro other hother hwithin
      cases other with
      | nil => exact Nat.zero_le _
      | cons first other =>
        obtain ⟨rfl, htail⟩ := List.cons_prefix_cons.mp hother
        obtain ⟨-, -, hrest⟩ := (within_cons_iff _ _ _ _).mp hwithin
        exact Nat.succ_le_succ (hlongest other htail hrest)

/-- Two longest beginnings of a text are the same. -/
theorem LongestPrefix.unique {Holds : List UInt8 → Prop} {text first second : List UInt8}
    (hfirst : LongestPrefix Holds text first) (hsecond : LongestPrefix Holds text second) :
    first = second := by
  have hle := hfirst.longest second hsecond.isPrefix hsecond.holds
  have hge := hsecond.longest first hfirst.isPrefix hfirst.holds
  exact (List.prefix_of_prefix_length_le hfirst.isPrefix hsecond.isPrefix hge).eq_of_length_le hle

theorem affordable_eq_self_iff (lines bytes : Limit) (text : List UInt8) :
    affordable lines bytes text = text ↔ Within lines bytes text := by
  have h := longest_affordable lines bytes text
  constructor
  · intro hall
    rw [← hall]
    exact h.holds
  · intro hwithin
    exact h.isPrefix.eq_of_length_le (h.longest text (List.prefix_refl _) hwithin)

/-- Behind a part that is paid for, the budgets are smaller by its cost. -/
theorem affordable_append (lines bytes : Limit) {first : List UInt8}
    (hfirst : Within lines bytes first) (second : List UInt8) :
    affordable lines bytes (first ++ second) =
      first ++
        affordable (lines.spend (first.count newline)) (bytes.spend first.length) second := by
  induction first generalizing lines bytes with
  | nil => simp
  | cons byte first ih =>
    obtain ⟨hline, hleft, hrest⟩ := (within_cons_iff _ _ _ _).mp hfirst
    simp only [List.cons_append, affordable, hline, hleft, Bool.or_self, Bool.false_eq_true,
      if_false, ih _ _ hrest, Limit.spend_spend, List.length_cons]
    rw [← List.count_append, Nat.add_comm 1 first.length]
    rfl

theorem affordable_of_take {lines bytes : Limit} {text : List UInt8} {count : Nat}
    (h : Within lines bytes (text.take count)) :
    affordable lines bytes text = text.take count ++
      affordable (lines.spend ((text.take count).count newline))
        (bytes.spend (text.take count).length) (text.drop count) := by
  have happend := affordable_append lines bytes h (text.drop count)
  rwa [List.take_append_drop] at happend

/-- Behind a part that is not paid for as a whole, nothing is. -/
theorem affordable_append_of_not_within {lines bytes : Limit} {first : List UInt8}
    (hfirst : ¬ Within lines bytes first) (second : List UInt8) :
    affordable lines bytes (first ++ second) = affordable lines bytes first := by
  induction first generalizing lines bytes with
  | nil => exact absurd (within_nil lines bytes) hfirst
  | cons byte first ih =>
    rw [List.cons_append, affordable, affordable]
    split
    · rfl
    next hspent =>
      have hleft : lines.isSpent = false ∧ bytes.isSpent = false := by simpa using hspent
      rw [ih fun hrest => hfirst ((within_cons_iff _ _ _ _).mpr ⟨hleft.1, hleft.2, hrest⟩)]

end Budgeted

end CountingLoops

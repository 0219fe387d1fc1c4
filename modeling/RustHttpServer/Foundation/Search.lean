import Mathlib.Data.List.Infix

/-!
# Searching

Searching and cutting texts over any alphabet. Everything is built on `splitOnce`,
which cuts a text around the first occurrence of a pattern. An occurrence once
found stays the first one however the text is extended (`splitOnce_append`).
-/

namespace Foundation

variable {α : Type} [DecidableEq α]

omit [DecidableEq α] in
/-- What follows a leading pattern. -/
theorem dropPrefix?_eq_some_iff_append [BEq α] [LawfulBEq α] {text pattern rest : List α} :
    text.dropPrefix? pattern = some rest ↔ text = pattern ++ rest := by
  simp only [List.dropPrefix?_eq_some_iff, beq_iff_eq, exists_eq_right]

omit [DecidableEq α] in
/-- A pattern is stripped in two parts. -/
theorem dropPrefix?_append [BEq α] (text first second : List α) :
    text.dropPrefix? (first ++ second) =
      (text.dropPrefix? first).bind fun rest => rest.dropPrefix? second := by
  induction first generalizing text with
  | nil =>
      rw [List.nil_append, List.dropPrefix?_nil, Option.bind_some]
  | cons expected first ih =>
      cases text with
      | nil => rfl
      | cons char text =>
          rw [List.cons_append, List.dropPrefix?, List.dropPrefix?]
          cases char == expected with
          | true => exact ih text
          | false => rfl

/-- The texts before and after the first occurrence of a pattern. -/
def splitOnce (text pattern : List α) : Option (List α × List α) :=
  match text with
  | [] => (List.dropPrefix? [] pattern).map fun rest => ([], rest)
  | char :: text =>
      match (char :: text).dropPrefix? pattern with
      | some rest => some ([], rest)
      | none => (splitOnce text pattern).map fun (before, after) => (char :: before, after)

/-- `before` and `after` surround the first occurrence of `pattern` in `text`. -/
structure FirstOccurrence (text pattern before after : List α) : Prop where
  occurs : text = before ++ (pattern ++ after)
  first : ∀ earlier later, text = earlier ++ (pattern ++ later) → before.length ≤ earlier.length

/-- What the search finds is an occurrence, and the first one. -/
theorem firstOccurrence_of_splitOnce {text pattern before after : List α}
    (found : splitOnce text pattern = some (before, after)) :
    FirstOccurrence text pattern before after := by
  induction text generalizing before after with
  | nil =>
      cases stripped : List.dropPrefix? [] pattern with
      | none => simp only [splitOnce, stripped, Option.map_none, reduceCtorEq] at found
      | some rest =>
          simp only [splitOnce, stripped, Option.map_some, Option.some.injEq, Prod.mk.injEq]
            at found
          obtain ⟨rfl, rfl⟩ := found
          have whole := dropPrefix?_eq_some_iff_append.mp stripped
          exact ⟨whole, fun _ _ _ => Nat.zero_le _⟩
  | cons char text ih =>
      cases stripped : (char :: text).dropPrefix? pattern with
      | some rest =>
          simp only [splitOnce, stripped, Option.some.injEq, Prod.mk.injEq] at found
          obtain ⟨rfl, rfl⟩ := found
          have whole := dropPrefix?_eq_some_iff_append.mp stripped
          exact ⟨whole, fun _ _ _ => Nat.zero_le _⟩
      | none =>
          simp only [splitOnce, stripped, Option.map_eq_some_iff, Prod.exists, Prod.mk.injEq]
            at found
          obtain ⟨inner, after', innerFound, rfl, rfl⟩ := found
          obtain ⟨occurs, first⟩ := ih innerFound
          refine ⟨by rw [occurs, List.cons_append], ?_⟩
          intro earlier later equal
          cases earlier with
          | nil =>
              -- An occurrence at the very start would have been stripped.
              have leading := dropPrefix?_eq_some_iff_append.mpr (equal.trans (List.nil_append _))
              rw [leading] at stripped
              cases stripped
          | cons head earlier =>
              rw [List.cons_append, List.cons.injEq] at equal
              have := first earlier later equal.2
              simp only [List.length_cons]
              omega

/-- A text in which the search fails does not contain the pattern. -/
theorem splitOnce_eq_none_iff {text pattern : List α} :
    splitOnce text pattern = none ↔ ¬ pattern <:+: text := by
  induction text with
  | nil =>
      cases pattern with
      | nil => simp [splitOnce, List.dropPrefix?]
      | cons expected pattern => simp [splitOnce, List.dropPrefix?]
  | cons char text ih =>
      cases stripped : (char :: text).dropPrefix? pattern with
      | some rest =>
          have leading : pattern <+: char :: text :=
            ⟨rest, (dropPrefix?_eq_some_iff_append.mp stripped).symm⟩
          simp only [splitOnce, stripped, reduceCtorEq, false_iff, not_not]
          exact leading.isInfix
      | none =>
          have absent : ¬ pattern <+: char :: text := by
            rintro ⟨rest, equal⟩
            rw [dropPrefix?_eq_some_iff_append.mpr equal.symm] at stripped
            cases stripped
          simp only [splitOnce, stripped, Option.map_eq_none_iff, ih, List.infix_cons_iff, absent,
            false_or]

/-- The search finds exactly the first occurrence. -/
theorem splitOnce_eq_some_iff {text pattern before after : List α} :
    splitOnce text pattern = some (before, after) ↔
      FirstOccurrence text pattern before after := by
  constructor
  · exact firstOccurrence_of_splitOnce
  · intro ⟨occurs, first⟩
    cases found : splitOnce text pattern with
    | none =>
        refine (splitOnce_eq_none_iff.mp found ⟨before, after, ?_⟩).elim
        rw [occurs, List.append_assoc]
    | some split =>
        obtain ⟨before', after'⟩ := split
        obtain ⟨occurs', first'⟩ := firstOccurrence_of_splitOnce found
        have lengths : before'.length = before.length :=
          Nat.le_antisymm (first' before after occurs) (first before' after' occurs')
        obtain ⟨rfl, same⟩ := List.append_inj (occurs'.symm.trans occurs) lengths
        obtain rfl := List.append_cancel_left same
        rfl

/-- The first occurrence of a pattern stays the first one when text is added
behind it. -/
theorem splitOnce_append {text pattern before after : List α} (more : List α)
    (found : splitOnce text pattern = some (before, after)) :
    splitOnce (text ++ more) pattern = some (before, after ++ more) := by
  obtain ⟨occurs, first⟩ := firstOccurrence_of_splitOnce found
  refine splitOnce_eq_some_iff.mpr ⟨by rw [occurs]; simp only [List.append_assoc], ?_⟩
  intro earlier later equal
  by_contra shorter
  -- An occurrence that starts earlier also ends earlier, within `text`.
  have fits : (earlier ++ pattern).length ≤ text.length := by
    rw [occurs]
    simp only [List.length_append]
    omega
  have leading : earlier ++ pattern <+: text := by
    refine List.prefix_of_prefix_length_le ?_ (List.prefix_append text more) fits
    exact ⟨later, by rw [equal, List.append_assoc]⟩
  obtain ⟨rest, whole⟩ := leading
  have := first earlier rest (by rw [← whole, List.append_assoc])
  omega

/-- Cutting a text loses the pattern only. -/
theorem splitOnce_length {text pattern before after : List α}
    (found : splitOnce text pattern = some (before, after)) :
    text.length = before.length + pattern.length + after.length := by
  rw [(firstOccurrence_of_splitOnce found).occurs]
  simp only [List.length_append, Nat.add_assoc]

/-- A pattern is found behind any text that it does not begin in. -/
theorem splitOnce_eq_some_iff_absent {text pattern before after : List α}
    (nonempty : pattern ≠ []) : splitOnce text pattern = some (before, after) ↔
      text = before ++ (pattern ++ after) ∧ ¬ pattern <:+: before ++ pattern.dropLast := by
  have parts : pattern.dropLast ++ [pattern.getLast nonempty] = pattern :=
    List.dropLast_append_getLast nonempty
  have length : pattern.dropLast.length + 1 = pattern.length := by
    rw [← congrArg List.length parts, List.length_append, List.length_singleton]
  have whole : before ++ (pattern ++ after) =
      before ++ pattern.dropLast ++ pattern.getLast nonempty :: after := by
    rw [List.append_assoc, List.append_cons pattern.dropLast, parts]
  rw [splitOnce_eq_some_iff]
  constructor
  · intro ⟨occurs, first⟩
    refine ⟨occurs, fun ⟨earlier, later, inside⟩ => ?_⟩
    have shorter := congrArg List.length inside
    simp only [List.length_append] at shorter
    have := first earlier (later ++ pattern.getLast nonempty :: after) (by
      rw [occurs, whole, ← inside]
      simp only [List.append_assoc])
    omega
  · intro ⟨occurs, absent⟩
    refine ⟨occurs, fun earlier later equal => ?_⟩
    by_contra shorter
    -- An occurrence that begins in `before` ends before the last character of `pattern` does.
    have fits : (earlier ++ pattern).length ≤ (before ++ pattern.dropLast).length := by
      simp only [List.length_append]
      omega
    have leading : earlier ++ pattern <+: before ++ pattern.dropLast :=
      List.prefix_of_prefix_length_le ⟨later, by rw [equal, List.append_assoc]⟩
        ⟨_, (occurs.trans whole).symm⟩ fits
    exact absent ((List.suffix_append earlier pattern).isInfix.trans leading.isInfix)

/-- A pattern of one character is found at the first place the character stands. -/
theorem splitOnce_char_iff {char : α} {text before after : List α} :
    splitOnce text [char] = some (before, after) ↔
      text = before ++ char :: after ∧ char ∉ before := by
  rw [splitOnce_eq_some_iff_absent (List.cons_ne_nil char []), List.dropLast_singleton,
    List.append_nil, List.singleton_infix_iff, List.singleton_append]

/-- A pattern of two different characters is found behind any text that does not
contain it. -/
theorem splitOnce_pair_iff {first second : α} (different : first ≠ second)
    {text before after : List α} :
    splitOnce text [first, second] = some (before, after) ↔
      text = before ++ first :: second :: after ∧ ¬ [first, second] <:+: before := by
  have inside : [first, second] <:+: before ++ [first] ↔ [first, second] <:+: before := by
    rw [List.infix_concat_iff]
    refine or_iff_right fun trailing => ?_
    rcases List.suffix_concat_iff.mp trailing with empty | ⟨front, ends, _⟩
    · cases empty
    · change [first] ++ [second] = front ++ [first] at ends
      exact different (List.singleton_inj.mp (List.append_inj_right' ends rfl)).symm
  rw [splitOnce_eq_some_iff_absent (List.cons_ne_nil first [second])]
  exact and_congr_right fun _ => not_congr inside

/-- The same character twice is found behind any text that it does not begin in. -/
theorem splitOnce_twice_iff {char : α} {text before after : List α} :
    splitOnce text [char, char] = some (before, after) ↔
      text = before ++ char :: char :: after ∧ ¬ [char, char] <:+: before ++ [char] :=
  splitOnce_eq_some_iff_absent (List.cons_ne_nil char [char])

/-- The pieces of a text between the occurrences of a pattern. -/
def split (text pattern : List α) (nonempty : pattern ≠ []) : List (List α) :=
  match _found : splitOnce text pattern with
  | none => [text]
  | some (before, after) => before :: split after pattern nonempty
termination_by text.length
decreasing_by
  have := splitOnce_length _found
  have := List.length_pos_iff.mpr nonempty
  omega

/-- A text without the pattern is one part. -/
theorem split_of_eq_none {text pattern : List α} (nonempty : pattern ≠ [])
    (absent : splitOnce text pattern = none) : split text pattern nonempty = [text] := by
  unfold split
  split
  · rfl
  · next found => rw [absent] at found; cases found

/-- The first part ends at the first occurrence, and the others are those of what follows. -/
theorem split_of_eq_some {text pattern before after : List α} (nonempty : pattern ≠ [])
    (found : splitOnce text pattern = some (before, after)) :
    split text pattern nonempty = before :: split after pattern nonempty := by
  rw [split]
  split
  · next absent => rw [found] at absent; cases absent
  · next found' =>
      rw [found] at found'
      cases found'
      rfl

/-- Without the character there is nothing to split at. -/
theorem splitOnce_char_eq_none_iff {char : α} {text : List α} :
    splitOnce text [char] = none ↔ char ∉ text := by
  rw [splitOnce_eq_none_iff, List.singleton_infix_iff]

/-- No piece contains the character that the text is split at. -/
theorem not_mem_of_mem_split {text piece : List α} {char : α} (nonempty : [char] ≠ [])
    (inside : piece ∈ split text [char] nonempty) : char ∉ piece := by
  induction text using split.induct [char] nonempty with
  | case1 text absent =>
      rw [split_of_eq_none nonempty absent, List.mem_singleton] at inside
      rw [inside]
      exact splitOnce_char_eq_none_iff.mp absent
  | case2 text before after found ih =>
      rw [split_of_eq_some nonempty found, List.mem_cons] at inside
      rcases inside with rfl | inside
      · exact (splitOnce_char_iff.mp found).2
      · exact ih inside

/-! ### Lines -/

/-- Lines that are joined are split again. -/
theorem split_intercalate {char : α} (nonempty : [char] ≠ []) {lines : List (List α)}
    (some : lines ≠ []) (unbroken : ∀ line ∈ lines, char ∉ line) :
    split ([char].intercalate lines) [char] nonempty = lines := by
  induction lines with
  | nil => exact absurd rfl some
  | cons line lines ih =>
      obtain ⟨first, others⟩ := List.forall_mem_cons.mp unbroken
      cases lines with
      | nil =>
          rw [List.intercalate_singleton]
          exact split_of_eq_none nonempty (splitOnce_char_eq_none_iff.mpr first)
      | cons next lines =>
          have cut : splitOnce ([char].intercalate (line :: next :: lines)) [char] =
              Option.some (line, [char].intercalate (next :: lines)) := by
            refine splitOnce_char_iff.mpr ⟨?_, first⟩
            rw [List.intercalate_cons_cons, List.append_assoc, List.singleton_append]
          rw [split_of_eq_some nonempty cut, ih (List.cons_ne_nil next lines) others]

/-- Ended lines are split again, and what stands behind them. -/
theorem split_flatMap {char : α} (nonempty : [char] ≠ []) {lines : List (List α)}
    (unbroken : ∀ line ∈ lines, char ∉ line) {tail : List α} (absent : char ∉ tail) :
    split (lines.flatMap (· ++ [char]) ++ tail) [char] nonempty = lines ++ [tail] := by
  induction lines with
  | nil => exact split_of_eq_none nonempty (splitOnce_char_eq_none_iff.mpr absent)
  | cons line lines ih =>
      obtain ⟨first, others⟩ := List.forall_mem_cons.mp unbroken
      have cut : splitOnce ((line :: lines).flatMap (· ++ [char]) ++ tail) [char] =
          some (line, lines.flatMap (· ++ [char]) ++ tail) := by
        refine splitOnce_char_iff.mpr ⟨?_, first⟩
        rw [List.flatMap_cons, List.append_assoc, List.append_assoc]
        rfl
      rw [split_of_eq_some nonempty cut, ih others, List.cons_append]

omit [DecidableEq α] in
/-- Lines that are joined, and the last one ended too. -/
theorem intercalate_append_singleton (char : α) {lines : List (List α)} (some : lines ≠ []) :
    [char].intercalate lines ++ [char] = lines.flatMap (· ++ [char]) := by
  induction lines with
  | nil => exact absurd rfl some
  | cons line lines ih =>
      cases lines with
      | nil =>
          rw [List.intercalate_singleton, List.flatMap_singleton]
      | cons next lines =>
          rw [List.intercalate_cons_cons, List.append_assoc, ih (List.cons_ne_nil next lines)]
          rfl

omit [DecidableEq α] in
/-- A character that stands twice in a row does not do so in a text without it. -/
theorem twice_infix_append_iff {char : α} {line rest : List α} (absent : char ∉ line) :
    [char, char] <:+: line ++ rest ↔ [char, char] <:+: rest := by
  induction line with
  | nil => rw [List.nil_append]
  | cons head line ih =>
      obtain ⟨different, absent⟩ := List.ne_and_not_mem_of_not_mem_cons absent
      rw [List.cons_append, List.infix_cons_iff, ih absent, List.cons_prefix_cons]
      exact or_iff_right fun leading => different leading.1

omit [DecidableEq α] in
/-- In lines that are not empty the character never stands twice in a row. -/
theorem not_twice_infix_flatMap {char : α} {lines : List (List α)}
    (nonempty : ∀ line ∈ lines, line ≠ []) (unbroken : ∀ line ∈ lines, char ∉ line) :
    ¬ [char, char] <:+: lines.flatMap (· ++ [char]) := by
  induction lines with
  | nil => exact fun inside => absurd (List.infix_nil.mp inside) (List.cons_ne_nil char [char])
  | cons line lines ih =>
      obtain ⟨_, nonempty⟩ := List.forall_mem_cons.mp nonempty
      obtain ⟨first, others⟩ := List.forall_mem_cons.mp unbroken
      rw [List.flatMap_cons, List.append_assoc, twice_infix_append_iff first,
        List.singleton_append, List.infix_cons_iff]
      refine not_or.mpr ⟨fun leading => ?_, ih nonempty others⟩
      have follows := (List.cons_prefix_cons.mp leading).2
      cases lines with
      | nil => exact absurd (List.prefix_nil.mp follows) (List.cons_ne_nil char [])
      | cons next lines =>
          cases next with
          | nil => exact nonempty [] List.mem_cons_self rfl
          | cons head next =>
              -- The next line would begin with the character.
              rw [List.flatMap_cons, List.cons_append, List.cons_append] at follows
              have same := (List.cons_prefix_cons.mp follows).1
              exact others (head :: next) List.mem_cons_self (same ▸ List.mem_cons_self)

/-- Every text is lines that are ended by the character and a rest without it. -/
theorem exists_lines (char : α) (text : List α) : ∃ (lines : List (List α)) (tail : List α),
    text = lines.flatMap (· ++ [char]) ++ tail ∧ (∀ line ∈ lines, char ∉ line) ∧ char ∉ tail := by
  induction text using split.induct [char] (List.cons_ne_nil char []) with
  | case1 text absent =>
      exact ⟨[], text, rfl, List.forall_mem_nil _, splitOnce_char_eq_none_iff.mp absent⟩
  | case2 text before after found ih =>
      obtain ⟨lines, tail, rfl, unbroken, absent⟩ := ih
      obtain ⟨rfl, first⟩ := splitOnce_char_iff.mp found
      refine ⟨before :: lines, tail, ?_, List.forall_mem_cons.mpr ⟨first, unbroken⟩, absent⟩
      rw [List.flatMap_cons, List.append_assoc, List.append_assoc]
      rfl

end Foundation

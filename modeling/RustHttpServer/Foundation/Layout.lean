import RustHttpServer.Foundation.Scan

/-!
# Layouts

A text of a fixed layout is a row of slots, in each of which stands one of some pieces. A
reader that cuts off a number of bytes before it compares them aborts where these cannot be
cut off, so it returns on the texts that are `Legible`. What is known of two readers is
known of the reader that applies one behind the other (`Reads.seq`, `Reads.behind`).
-/

namespace Foundation

open Utf8

/-- A place in a layout: the pieces that may stand there, and the number of bytes that are
cut off before they are compared, if there is one. -/
structure Slot where
  pieces : List Text
  width : Option Nat

/-- A slot for one character. -/
def Slot.mark (char : Char) : Slot := ⟨[[char]], none⟩

/-- The bytes for a slot can be cut off. -/
def Slot.Cuttable (slot : Slot) (text : Text) : Prop :=
  ∀ width ∈ slot.width, (text.splitAt? width).isSome

/-- The text has one of its pieces for each slot of a layout. -/
def Fills : List Slot → Text → Prop
  | [], text => text = []
  | slot :: layout, text => ∃ piece ∈ slot.pieces, ∃ rest, text = piece ++ rest ∧ Fills layout rest

/-- At each slot that is reached, the bytes can be cut off. -/
def Legible : List Slot → Text → Prop
  | [], _ => True
  | slot :: layout, text => slot.Cuttable text ∧
      ∀ piece ∈ slot.pieces, ∀ rest, text = piece ++ rest → Legible layout rest

/-- What fills slots falls apart into what fills the first and the last of them. -/
theorem fills_append_iff {first second : List Slot} {text : Text} :
    Fills (first ++ second) text ↔
      ∃ before after, text = before ++ after ∧ Fills first before ∧ Fills second after := by
  induction first generalizing text with
  | nil =>
      constructor
      · intro fills
        exact ⟨[], text, rfl, rfl, fills⟩
      · rintro ⟨_, after, rfl, rfl, fills⟩
        exact fills
  | cons slot first ih =>
      constructor
      · rintro ⟨piece, inside, rest, rfl, fills⟩
        obtain ⟨before, after, rfl, fills, others⟩ := ih.mp fills
        exact ⟨piece ++ before, after, (List.append_assoc _ _ _).symm,
          ⟨piece, inside, before, rfl, fills⟩, others⟩
      · rintro ⟨_, after, rfl, ⟨piece, inside, before, rfl, fills⟩, others⟩
        exact ⟨piece, inside, before ++ after, List.append_assoc _ _ _,
          ih.mpr ⟨before, after, rfl, fills, others⟩⟩

/-- A text can be read through slots if it can through the first, and then the rest through the
others. -/
theorem legible_append_iff {first second : List Slot} {text : Text} :
    Legible (first ++ second) text ↔ Legible first text ∧
      ∀ before rest, text = before ++ rest → Fills first before → Legible second rest := by
  induction first generalizing text with
  | nil =>
      constructor
      · rintro legible
        refine ⟨trivial, ?_⟩
        rintro _ rest rfl rfl
        exact legible
      · exact fun ⟨_, legible⟩ => legible [] text rfl rfl
  | cons slot first ih =>
      constructor
      · intro ⟨cuttable, legible⟩
        refine ⟨⟨cuttable, fun piece inside rest whole => ?_⟩, ?_⟩
        · exact (ih.mp (legible piece inside rest whole)).1
        · rintro _ rest rfl ⟨piece, inside, before, rfl, fills⟩
          have reached := legible piece inside (before ++ rest) (List.append_assoc _ _ _)
          exact (ih.mp reached).2 before rest rfl fills
      · intro ⟨⟨cuttable, legible⟩, others⟩
        refine ⟨cuttable, fun piece inside rest whole => ?_⟩
        refine ih.mpr ⟨legible piece inside rest whole, ?_⟩
        rintro before after rfl fills
        exact others (piece ++ before) after (by rw [whole, List.append_assoc])
          ⟨piece, inside, before, rfl, fills⟩

/-! ### Readers -/

variable {ε α β : Type}

/-- Code that reads a value from the front of a text. -/
abbrev Reader (ε α : Type) := Text → Outcome ε (α × Text)

namespace Reader

/-- Reads one value behind another. -/
def seq (first : Reader ε α) (second : Reader ε β) : Reader ε (α × β) := fun text => do
  let (value, text) ← first text
  let (other, text) ← second text
  return ((value, other), text)

/-- Reads a value behind something that is discarded. -/
def behind (discard : Text → Outcome ε Text) (reader : Reader ε α) : Reader ε α :=
  fun text => discard text >>= reader

/-- Cuts off some bytes and looks them up. -/
def named (width : Nat) (find : Text → Option α) (error : ε) : Reader ε α := fun text => do
  let rest ← text.sliceFrom width
  let name ← text.sliceTo width
  match find name with
  | some value => return (value, rest)
  | none => .err error

section Named

variable {width : Nat} {find : Text → Option α} {error : ε} {text name rest : Text}

private theorem named_of_uncut (uncut : text.splitAt? width = none) :
    named width find error text = .abort := by
  rw [named, Text.sliceFrom, uncut]
  rfl

private theorem named_of_unknown (cut : text.splitAt? width = some (name, rest))
    (unknown : find name = none) : named width find error text = .err error := by
  rw [named, Text.sliceFrom, Text.sliceTo, cut, Option.map_some, Outcome.unwrap_some,
    Outcome.ok_bind, Option.map_some, Outcome.unwrap_some, Outcome.ok_bind]
  dsimp only
  rw [unknown]

private theorem named_of_known (cut : text.splitAt? width = some (name, rest)) {value : α}
    (known : find name = some value) : named width find error text = .ok (value, rest) := by
  rw [named, Text.sliceFrom, Text.sliceTo, cut, Option.map_some, Outcome.unwrap_some,
    Outcome.ok_bind, Option.map_some, Outcome.unwrap_some, Outcome.ok_bind]
  dsimp only
  rw [known]
  rfl

end Named

end Reader

/-- A reader of a layout: how what is written there is printed, and the value that is read. -/
structure Reads {written : Type} (layout : List Slot) (reader : Reader ε α) (value : written → α)
    (print : written → Text) : Prop where
  returns_iff : ∀ text, (reader text).Returns ↔ Legible layout text
  ok_iff : ∀ text read rest,
    reader text = .ok (read, rest) ↔ ∃ item, value item = read ∧ text = print item ++ rest
  fills_iff : ∀ text, Fills layout text ↔ ∃ item, text = print item

/-- Code that discards a character. -/
structure Discards (char : Char) (discard : Text → Outcome ε Text) : Prop where
  returns : ∀ text, (discard text).Returns
  ok_iff : ∀ text rest, discard text = .ok rest ↔ text = [char] ++ rest

namespace Reads

variable {layout others : List Slot} {reader : Reader ε α} {next : Reader ε β}
  {written writtenNext : Type} {value : written → α} {print : written → Text}
  {valueNext : writtenNext → β} {printNext : writtenNext → Text}

/-- What is written may be seen as something else. -/
theorem reindex {seen : Type} (reads : Reads layout reader value print) {fields : seen → written}
    (covers : Function.Surjective fields) :
    Reads layout reader (fun item => value (fields item)) fun item => print (fields item) where
  returns_iff := reads.returns_iff
  ok_iff text read rest := (reads.ok_iff text read rest).trans covers.exists
  fills_iff text := (reads.fills_iff text).trans covers.exists

/-- What stands behind the layout is legible behind each item that may be read. -/
theorem legible_append_iff (reads : Reads layout reader value print) {text : Text} :
    Legible (layout ++ others) text ↔ Legible layout text ∧
      ∀ item rest, text = print item ++ rest → Legible others rest := by
  rw [Foundation.legible_append_iff]
  refine and_congr_right fun _ => ?_
  constructor
  · intro legible item rest whole
    exact legible (print item) rest whole ((reads.fills_iff _).mpr ⟨item, rfl⟩)
  · intro legible before rest whole fills
    obtain ⟨item, rfl⟩ := (reads.fills_iff before).mp fills
    exact legible item rest whole

/-- Code that goes on with the value that is read. -/
theorem bind_returns_iff {γ : Type} (reads : Reads layout reader value print)
    {go : α × Text → Outcome ε γ} {text : Text} :
    (reader text >>= go).Returns ↔ Legible layout text ∧
      ∀ item rest, text = print item ++ rest → (go (value item, rest)).Returns := by
  rw [Outcome.Returns, Ne, Outcome.bind_eq_abort_iff, not_or]
  refine and_congr (reads.returns_iff text) ?_
  constructor
  · intro never item rest whole aborted
    exact never ⟨(value item, rest), (reads.ok_iff _ _ _).mpr ⟨item, rfl, whole⟩, aborted⟩
  · rintro returns ⟨⟨read, rest⟩, reading, aborted⟩
    obtain ⟨item, rfl, whole⟩ := (reads.ok_iff _ _ _).mp reading
    exact returns item rest whole aborted

/-- Code that goes on with the value that is read, when it returns a value. -/
theorem bind_eq_ok_iff {γ : Type} (reads : Reads layout reader value print)
    {go : α × Text → Outcome ε γ} {text : Text} {result : γ} :
    (reader text >>= go) = .ok result ↔
      ∃ item rest, text = print item ++ rest ∧ go (value item, rest) = .ok result := by
  rw [Outcome.bind_eq_ok_iff]
  constructor
  · rintro ⟨⟨read, rest⟩, reading, goes⟩
    obtain ⟨item, rfl, whole⟩ := (reads.ok_iff _ _ _).mp reading
    exact ⟨item, rest, whole, goes⟩
  · rintro ⟨item, rest, whole, goes⟩
    exact ⟨(value item, rest), (reads.ok_iff _ _ _).mpr ⟨item, rfl, whole⟩, goes⟩

/-- One reader behind another reads one layout behind the other. -/
theorem seq (first : Reads layout reader value print)
    (second : Reads others next valueNext printNext) :
    Reads (layout ++ others) (reader.seq next)
      (fun items : written × writtenNext => (value items.1, valueNext items.2))
      (fun items => print items.1 ++ printNext items.2) where
  returns_iff text := by
    have goes : ∀ (read : α) rest, (next rest >>= fun (other, rest) =>
        pure ((read, other), rest)).Returns ↔ Legible others rest := fun _ _ =>
      second.bind_returns_iff.trans (and_iff_left fun _ _ _ => Outcome.Returns.ok _)
    rw [first.legible_append_iff]
    refine first.bind_returns_iff.trans (and_congr_right fun _ => ?_)
    exact forall₃_congr fun item rest _ => goes (value item) rest
  ok_iff text read rest := by
    constructor
    · intro reading
      obtain ⟨item, _, rfl, goes⟩ := first.bind_eq_ok_iff.mp reading
      obtain ⟨other, _, rfl, same⟩ := second.bind_eq_ok_iff.mp goes
      cases same
      exact ⟨(item, other), rfl, (List.append_assoc _ _ _).symm⟩
    · rintro ⟨⟨item, other⟩, rfl, rfl⟩
      exact first.bind_eq_ok_iff.mpr ⟨item, printNext other ++ rest, List.append_assoc _ _ _,
        second.bind_eq_ok_iff.mpr ⟨other, rest, rfl, rfl⟩⟩
  fills_iff text := by
    rw [fills_append_iff]
    constructor
    · rintro ⟨before, after, rfl, fills, fillsNext⟩
      obtain ⟨item, rfl⟩ := (first.fills_iff before).mp fills
      obtain ⟨other, rfl⟩ := (second.fills_iff after).mp fillsNext
      exact ⟨(item, other), rfl⟩
    · rintro ⟨⟨item, other⟩, rfl⟩
      exact ⟨_, _, rfl, (first.fills_iff _).mpr ⟨item, rfl⟩,
        (second.fills_iff _).mpr ⟨other, rfl⟩⟩

/-- Behind a mark that is discarded. -/
theorem behind {char : Char} {discard : Text → Outcome ε Text} (discards : Discards char discard)
    (reads : Reads layout reader value print) :
    Reads (.mark char :: layout) (reader.behind discard) value
      (fun item => [char] ++ print item) where
  returns_iff text := by
    rw [Outcome.Returns, Ne, Reader.behind, (discards.returns text).bind_eq_abort_iff]
    constructor
    · intro never
      refine ⟨nofun, fun piece inside rest whole => ?_⟩
      obtain rfl := List.mem_singleton.mp inside
      refine (reads.returns_iff rest).mp fun aborted => never ⟨rest, ?_, aborted⟩
      exact (discards.ok_iff _ _).mpr whole
    · rintro ⟨_, legible⟩ ⟨rest, discarded, aborted⟩
      have reached := legible [char] (List.mem_singleton_self _) rest
        ((discards.ok_iff _ _).mp discarded)
      exact (reads.returns_iff rest).mpr reached aborted
  ok_iff text read rest := by
    rw [Reader.behind, Outcome.bind_eq_ok_iff]
    constructor
    · rintro ⟨between, discarded, reading⟩
      obtain rfl := (discards.ok_iff _ _).mp discarded
      obtain ⟨item, rfl, rfl⟩ := (reads.ok_iff _ _ _).mp reading
      exact ⟨item, rfl, (List.append_assoc _ _ _).symm⟩
    · rintro ⟨item, rfl, rfl⟩
      exact ⟨print item ++ rest, (discards.ok_iff _ _).mpr (List.append_assoc _ _ _),
        (reads.ok_iff _ _ _).mpr ⟨item, rfl, rfl⟩⟩
  fills_iff text := by
    constructor
    · rintro ⟨piece, inside, rest, rfl, fills⟩
      obtain rfl := List.mem_singleton.mp inside
      obtain ⟨item, rfl⟩ := (reads.fills_iff rest).mp fills
      exact ⟨item, rfl⟩
    · rintro ⟨item, rfl⟩
      exact ⟨[char], List.mem_singleton_self _, print item, rfl,
        (reads.fills_iff _).mpr ⟨item, rfl⟩⟩

/-- Names of one width that are looked up. -/
theorem named {width : Nat} {find : Text → Option α} (error : ε) {pieces : List Text}
    (found : ∀ name read, find name = some read ↔ ∃ item, value item = read ∧ print item = name)
    (size : ∀ item, byteLength (print item) = width)
    (listed : ∀ piece, piece ∈ pieces ↔ ∃ item, print item = piece) :
    Reads [⟨pieces, some width⟩] (Reader.named width find error) value print where
  returns_iff text := by
    have legible : Legible [⟨pieces, some width⟩] text ↔ (text.splitAt? width).isSome := by
      simp [Legible, Slot.Cuttable]
    rw [legible]
    cases cut : text.splitAt? width with
    | none =>
        rw [Reader.named_of_uncut cut]
        exact iff_of_false (fun returns => returns rfl) Bool.false_ne_true
    | some halves =>
        refine iff_of_true ?_ rfl
        cases looked : find halves.1 with
        | none =>
            rw [Reader.named_of_unknown cut looked]
            exact .err error
        | some read =>
            rw [Reader.named_of_known cut looked]
            exact .ok (read, halves.2)
  ok_iff text read rest := by
    constructor
    · intro reading
      cases cut : text.splitAt? width with
      | none =>
          rw [Reader.named_of_uncut cut] at reading
          cases reading
      | some halves =>
          cases looked : find halves.1 with
          | none =>
              rw [Reader.named_of_unknown cut looked] at reading
              cases reading
          | some value =>
              rw [Reader.named_of_known cut looked] at reading
              cases reading
              obtain ⟨item, rfl, written⟩ := (found _ _).mp looked
              exact ⟨item, rfl, by rw [written, (Text.splitAt?_eq_some_iff.mp cut).1]⟩
    · rintro ⟨item, rfl, rfl⟩
      have cut : (print item ++ rest).splitAt? width = some (print item, rest) :=
        Text.splitAt?_eq_some_iff.mpr ⟨rfl, size item⟩
      exact Reader.named_of_known cut ((found _ _).mpr ⟨item, rfl, rfl⟩)
  fills_iff text := by
    constructor
    · rintro ⟨piece, inside, rest, rfl, rfl⟩
      obtain ⟨item, rfl⟩ := (listed piece).mp inside
      exact ⟨item, List.append_nil _⟩
    · rintro ⟨item, rfl⟩
      exact ⟨print item, (listed _).mpr ⟨item, rfl⟩, [], (List.append_nil _).symm, rfl⟩

end Reads

end Foundation

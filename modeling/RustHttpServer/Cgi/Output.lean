import RustHttpServer.Cgi
import RustHttpServer.Http.Decoding

/-!
# The output of scripts

A script writes header lines, an empty line and a body. The header lines are read back as a
map in which the last line of a field counts. The body is what stands up to the next empty
line, so it is read back whole if it has no two newlines in a row (`processCgiOutput_iff`).
-/

namespace RustHttpServer

open Foundation

/-- A header line that a script may write: the value is one line without outer whitespace. -/
structure ScriptHeader where
  field : ResponseHeaderField
  value : Text
  trimmed : value.trim = value
  unbroken : '\n' ∉ value

namespace ScriptHeader

/-- The line that is written. -/
def line (header : ScriptHeader) : Text := header.field.toText ++ [':', ' '] ++ header.value

/-- The value of the last line for a field. -/
def lastValue (headers : List ScriptHeader) (field : ResponseHeaderField) : Option Text :=
  (headers.reverse.find? fun header => header.field = field).map ScriptHeader.value

/-- The map entry that a line makes. -/
def entry (header : ScriptHeader) : ResponseHeaderField × Text := (header.field, header.value)

private theorem not_mem_toText (field : ResponseHeaderField) :
    ':' ∉ field.toText ∧ '\n' ∉ field.toText := by
  cases field <;> decide

private theorem line_ne_nil (header : ScriptHeader) : header.line ≠ [] :=
  List.append_ne_nil_of_left_ne_nil
    (List.append_ne_nil_of_right_ne_nil _ (List.cons_ne_nil _ _)) _

/-- A header takes one line. -/
theorem newline_not_mem_line (header : ScriptHeader) : '\n' ∉ header.line := by
  simp only [line, List.mem_append, not_or]
  exact ⟨⟨(not_mem_toText header.field).2, by decide⟩, header.unbroken⟩

/-- A line is read back as its field and value. -/
theorem cgiHeader_line (header : ScriptHeader) : cgiHeader header.line = some header.entry := by
  have cut : splitOnce header.line [':'] = some (header.field.toText, ' ' :: header.value) := by
    refine splitOnce_char_iff.mpr ⟨?_, (not_mem_toText header.field).1⟩
    rw [line, List.append_assoc]
    rfl
  have visible : Text.trim (' ' :: header.value) = header.value :=
    (Text.trim_append (List.forall_mem_singleton.mpr rfl) _).trans header.trimmed
  rw [cgiHeader, cut, Option.bind_eq_bind, Option.bind_some]
  dsimp only
  rw [ResponseHeaderField.fromStr_toText, visible]
  rfl

/-- All lines are collected, one after the other. -/
theorem collectHeader_lines (headers : List ScriptHeader) (map : ResponseHeaderLines) :
    (headers.map line).foldl collectHeader (some map) =
      some (map.insertAll (headers.map entry)) := by
  induction headers generalizing map with
  | nil => rfl
  | cons header headers ih =>
      have step : collectHeader (some map) header.line =
          some (map.insert header.field header.value) := by
        rw [collectHeader, Option.bind_eq_bind, Option.bind_some, cgiHeader_line]
        rfl
      rw [List.map_cons, List.foldl_cons, step, ih]
      rfl

private theorem lookup_insertAll_entries (headers : List ScriptHeader)
    (field : ResponseHeaderField) :
    (HashMap.insertAll ∅ (headers.map entry)).lookup field = lastValue headers field := by
  rw [HashMap.lookup_insertAll, Finmap.lookup_empty, Option.or_none, ← List.map_reverse,
    List.find?_map, Option.map_map]
  rfl

end ScriptHeader

/-- What a script writes: the header lines joined by newlines, an empty line, the body. -/
def scriptOutput (headers : List ScriptHeader) (body : Text) : Text :=
  ['\n'].intercalate (headers.map ScriptHeader.line) ++ ['\n', '\n'] ++ body

variable {headers : List ScriptHeader}

/-- The first empty line of the output is the one that ends the header lines. -/
theorem splitOnce_scriptOutput (some : headers ≠ []) (body : Text) :
    splitOnce (scriptOutput headers body) ['\n', '\n'] =
      .some (['\n'].intercalate (headers.map ScriptHeader.line), body) := by
  refine splitOnce_twice_iff.mpr ⟨by rw [scriptOutput, List.append_assoc]; rfl, ?_⟩
  rw [intercalate_append_singleton '\n' (List.map_eq_nil_iff.not.mpr some)]
  refine not_twice_infix_flatMap ?_ ?_
  · exact List.forall_mem_map.mpr fun header _ => header.line_ne_nil
  · exact List.forall_mem_map.mpr fun header _ => header.newline_not_mem_line

/-- The output is read as the map of its header lines and the first piece of the body. -/
theorem processCgiOutput_scriptOutput (some : headers ≠ []) (body : Text) :
    processCgiOutput (scriptOutput headers body) =
      .ok (HashMap.insertAll ∅ (headers.map ScriptHeader.entry),
        (split body ['\n', '\n'] (List.cons_ne_nil _ _))[0]?.getD []) := by
  have lines : split (['\n'].intercalate (headers.map ScriptHeader.line)) ['\n']
      (List.cons_ne_nil _ _) = headers.map ScriptHeader.line := by
    refine split_intercalate _ (List.map_eq_nil_iff.not.mpr some) ?_
    exact List.forall_mem_map.mpr fun header _ => header.newline_not_mem_line
  unfold processCgiOutput
  dsimp only
  rw [split_of_eq_some _ (splitOnce_scriptOutput some body), List.getElem?_cons_zero,
    Option.bind_some, lines, ScriptHeader.collectHeader_lines, List.getElem?_cons_succ]
  rfl

/-- The first piece is the whole body if there is nothing to split it at. -/
theorem getD_split_eq_self_iff {body : Text} :
    (split body ['\n', '\n'] (List.cons_ne_nil _ _))[0]?.getD [] = body ↔
      ¬ ['\n', '\n'] <:+: body := by
  rw [← splitOnce_eq_none_iff]
  cases found : splitOnce body ['\n', '\n'] with
  | none =>
      rw [split_of_eq_none _ found]
      exact iff_of_true rfl rfl
  | some halves =>
      obtain ⟨before, after⟩ := halves
      have longer := splitOnce_length found
      rw [split_of_eq_some _ found, List.getElem?_cons_zero, Option.getD_some]
      refine iff_of_false (fun same => ?_) (Option.some_ne_none _)
      rw [same, List.length_cons, List.length_singleton] at longer
      omega

/-- **The output of a script is read back** if its body has no two newlines in a row: the
map of its header lines, of which the last one counts for each field, and the body. Any
other body is cut short. -/
theorem processCgiOutput_iff (some : headers ≠ []) (body : Text) :
    (∃ map, processCgiOutput (scriptOutput headers body) = .ok (map, body) ∧
        ∀ field, map.lookup field = ScriptHeader.lastValue headers field) ↔
      ¬ ['\n', '\n'] <:+: body := by
  rw [processCgiOutput_scriptOutput some body, ← getD_split_eq_self_iff]
  constructor
  · rintro ⟨map, read, _⟩
    exact (Prod.mk.inj (Outcome.ok.inj read)).2
  · intro whole
    refine ⟨_, by rw [whole], ?_⟩
    exact ScriptHeader.lookup_insertAll_entries headers

/-- A header that says that the body is a page. -/
def pageHeader : ScriptHeader where
  field := .contentType
  value := "text/html".toList
  trimmed := by decide
  unbroken := by decide

/-- A page of one line comes through. -/
theorem processCgiOutput_iff_page :
    ∃ map, processCgiOutput (scriptOutput [pageHeader] "<p>\n</p>\n".toList) =
        .ok (map, "<p>\n</p>\n".toList) ∧
      ∀ field, map.lookup field = ScriptHeader.lastValue [pageHeader] field :=
  (processCgiOutput_iff (List.cons_ne_nil _ _) _).mpr (by decide)

/-- A page with an empty line is cut at it. -/
theorem processCgiOutput_cut :
    ¬ ∀ headers : List ScriptHeader, headers ≠ [] → ∀ body : Text,
      ∃ map, processCgiOutput (scriptOutput headers body) = .ok (map, body) ∧
        ∀ field, map.lookup field = ScriptHeader.lastValue headers field := by
  intro readBack
  obtain ⟨map, read, _⟩ := readBack [pageHeader] (List.cons_ne_nil _ _) "<p>\n\n</p>\n".toList
  rw [processCgiOutput_scriptOutput (List.cons_ne_nil _ _)] at read
  exact absurd (getD_split_eq_self_iff.mp (Prod.mk.inj (Outcome.ok.inj read)).2) (by decide)

end RustHttpServer

import RustHttpServer.Config

/-!
# Configuration files, line by line

A configuration file is read one line after the other, outside or inside a block. A line is
empty, a directive, or opens or closes a block, and where it may stand depends only on
whether a block is open (`ConfigState.step`). The parser of `config.rs` goes through these
states: it accepts the files that consist of ended lines after which no block is open
(`parseServerConfig_eq_ok_iff`), and it never aborts.
-/

namespace RustHttpServer

open Foundation

/-- The directive of a line. -/
def directiveLine (line : Text) : Option (Directive × Text) := do
  let (field, value) ← splitOnce (Text.trim line) [' ']
  let directive ← Directive.fromStr field
  return (directive, value)

/-- The line begins with a tag and ends with a bracket behind it. -/
def isTag (tag line : Text) : Bool :=
  match line.dropPrefix? tag with
  | some rest => rest.getLast? = some '>'
  | none => false

/-- The beginning of a line that opens a block. -/
def openTag : Text := "<VirtualHost".toList

/-- The beginning of a line that closes a block. -/
def closeTag : Text := "</VirtualHost".toList

/-- A file that has been read up to the end of a line. -/
inductive ConfigState
  | outside (config : ServerConfig)
  | inside (config : ServerConfig) (directives : HashMap Directive Text)

namespace ConfigState

/-- The file is read up to the end of a further line. -/
def step : ConfigState → Text → Option ConfigState
  | outside config, line =>
      if line = [] then some (outside config)
      else match directiveLine line with
        | some (field, value) =>
            some (outside { config with directives := config.directives.insert field value })
        | none => if isTag openTag line then some (inside config ∅) else none
  | inside config directives, line =>
      match directiveLine line with
      | some (field, value) => some (inside config (directives.insert field value))
      | none =>
          if isTag closeTag line then
            some (outside { config with virtualHosts := config.virtualHosts ++ [⟨directives⟩] })
          else none

/-- The file is read up to the end of some further lines. -/
def run (state : ConfigState) (lines : List Text) : Option ConfigState := lines.foldlM step state

/-- No lines change nothing. -/
theorem run_nil (state : ConfigState) : state.run [] = some state := rfl

/-- Lines are read one after the other. -/
theorem run_cons (state : ConfigState) (line : Text) (lines : List Text) :
    state.run (line :: lines) = (state.step line).bind fun next => next.run lines := rfl

/-- The lines behind others are read in the state that these lead to. -/
theorem run_append (state : ConfigState) (first second : List Text) :
    state.run (first ++ second) = (state.run first).bind fun next => next.run second :=
  List.foldlM_append

end ConfigState

/-! ### Lines -/

/-- The name of a directive. -/
def Directive.name : Directive → Text
  | .cacheSize => "CacheSize".toList
  | .documentRoot => "DocumentRoot".toList
  | .listenPort => "Listen".toList
  | .serverName => "ServerName".toList
  | .threadPoolSize => "ThreadPoolSize".toList

/-- A directive is read from its name only. -/
theorem Directive.fromStr_eq_some_iff {s : Text} {directive : Directive} :
    Directive.fromStr s = some directive ↔ s = directive.name := by
  constructor
  · intro named
    unfold fromStr at named
    repeat' split at named
    all_goals cases named
    all_goals assumption
  · rintro rfl
    cases directive <;> rfl

/-- A line is a tag if it begins like it and ends with its bracket. -/
theorem isTag_eq_true_iff {tag line : Text} :
    isTag tag line = true ↔ ∃ rest, line = tag ++ rest ∧ rest.getLast? = some '>' := by
  unfold isTag
  cases stripped : line.dropPrefix? tag with
  | some rest =>
      have whole := dropPrefix?_eq_some_iff_append.mp stripped
      constructor
      · exact fun closed => ⟨rest, whole, of_decide_eq_true closed⟩
      · rintro ⟨other, same, closed⟩
        obtain rfl := List.append_cancel_left (whole.symm.trans same)
        exact decide_eq_true closed
  | none =>
      refine iff_of_false Bool.false_ne_true ?_
      rintro ⟨rest, whole, _⟩
      rw [dropPrefix?_eq_some_iff_append.mpr whole] at stripped
      cases stripped

/-- A tag is no directive. -/
theorem directiveLine_of_bracket (line : Text) : directiveLine ('<' :: line) = none := by
  cases said : directiveLine ('<' :: line) with
  | none => rfl
  | some directive =>
      simp only [directiveLine, Option.bind_eq_bind, Option.bind_eq_some_iff] at said
      obtain ⟨⟨field, value⟩, cut, directive, named, _⟩ := said
      obtain rfl := Directive.fromStr_eq_some_iff.mp named
      obtain ⟨whole, _⟩ := splitOnce_char_iff.mp cut
      have leading : Text.trim ('<' :: line) <+: '<' :: line := by
        have visible : ('<' :: line).dropWhile Text.isWhitespace = '<' :: line := rfl
        rw [Text.trim, visible]
        exact List.rdropWhile_prefix _ _
      -- The name of a directive would begin with the bracket.
      rw [whole] at leading
      cases directive <;> exact absurd (List.cons_prefix_cons.mp leading).1 (by decide)

/-! ### The parsers of a line -/

section Line

variable {line : Text} (unbroken : '\n' ∉ line) (rest : Text)

include unbroken

private theorem splitOnce_line : splitOnce (line ++ '\n' :: rest) ['\n'] = some (line, rest) :=
  splitOnce_char_iff.mpr ⟨rfl, unbroken⟩

/-- A directive is parsed from its line. -/
private theorem parseDirective_line : parseDirective (line ++ '\n' :: rest) =
    Outcome.okOr () ((directiveLine line).map fun directive => (directive, rest)) := by
  rw [parseDirective, splitOnce_line unbroken, Outcome.okOr_some, Outcome.ok_bind]
  dsimp only
  unfold directiveLine
  cases splitOnce (Text.trim line) [' '] with
  | none => rfl
  | some halves =>
      obtain ⟨field, value⟩ := halves
      dsimp only [Outcome.okOr_some, Outcome.ok_bind, Option.bind_eq_bind, Option.bind_some]
      cases Directive.fromStr field with
      | none => rfl
      | some directive => rfl

private theorem parseOpenBlock_line : parseOpenBlock "VirtualHost".toList (line ++ '\n' :: rest) =
    if isTag openTag line then .ok ((), rest) else .err () := by
  rw [parseOpenBlock, splitOnce_line unbroken, Outcome.okOr_some, Outcome.ok_bind]
  dsimp only
  rw [discardChar_eq rfl, ← bind_assoc, discardString_discardString, discardString_eq, isTag]
  change (Outcome.okOr () (line.dropPrefix? openTag) >>= _) = _
  cases line.dropPrefix? openTag with
  | none => rfl
  | some label =>
      simp only [Outcome.okOr_some, Outcome.ok_bind, decide_eq_true_eq]
      rfl

/-- The end of a block is parsed from its line. -/
private theorem parseCloseBlock_line : parseCloseBlock "VirtualHost".toList (line ++ '\n' :: rest) =
    if isTag closeTag line then .ok ((), rest) else .err () := by
  rw [parseCloseBlock, splitOnce_line unbroken, Outcome.okOr_some, Outcome.ok_bind]
  dsimp only
  have slash : discardChar '/' = discardString ['/'] := funext (discardChar_eq rfl)
  rw [discardChar_eq rfl, slash, ← bind_assoc, ← bind_assoc, discardString_discardString,
    discardString_discardString, discardString_eq, isTag]
  change (Outcome.okOr () (line.dropPrefix? closeTag) >>= _) = _
  cases line.dropPrefix? closeTag with
  | none => rfl
  | some label =>
      simp only [Outcome.okOr_some, Outcome.ok_bind, decide_eq_true_eq]
      rfl

end Line

/-! ### The parser -/

/-- What is left of `parse_virtual_host` inside a block. -/
def parseBlock (directives : HashMap Directive Text) (s : Text) :
    Outcome Unit (VirtualHost × Text) := do
  let (directives, s) ← parseDirectives directives s
  let (_, s) ← parseCloseBlock "VirtualHost".toList s
  return ({ directives }, s)

/-- How reading a file fails. -/
def configError : Error :=
  ⟨"Could not parse file content into Apache-style configuration file"⟩

/-- What is left of `parse_server_config` in a state. -/
def parseFrom : ConfigState → Text → Outcome Error ServerConfig
  | .outside config, s => parseItems config.directives config.virtualHosts s
  | .inside config directives, s =>
      match parseBlock directives s with
      | .ok (virtualHost, rest) =>
          parseItems config.directives (config.virtualHosts ++ [virtualHost]) rest
      | .abort => .abort
      | .err _ => .err configError

/-- A block is parsed line by line. -/
private theorem parseBlock_line (directives : HashMap Directive Text) {line : Text}
    (unbroken : '\n' ∉ line) (rest : Text) : parseBlock directives (line ++ '\n' :: rest) =
      match directiveLine line with
      | some (field, value) => parseBlock (directives.insert field value) rest
      | none => if isTag closeTag line then .ok ({ directives }, rest) else .err () := by
  have parsed := parseDirective_line unbroken rest
  cases said : directiveLine line with
  | some directive =>
      obtain ⟨field, value⟩ := directive
      rw [said] at parsed
      dsimp only
      rw [parseBlock, parseDirectives_of_ok directives parsed]
      rfl
  | none =>
      rw [said] at parsed
      dsimp only
      rw [parseBlock, parseDirectives_of_err directives parsed, Outcome.ok_bind]
      dsimp only
      rw [parseCloseBlock_line unbroken]
      split
      · rfl
      · rfl

/-- One round of the loop. -/
theorem parseItems_eq (directives : HashMap Directive Text) (virtualHosts : List VirtualHost)
    (s : Text) : parseItems directives virtualHosts s =
      if s = [] then .ok { directives, virtualHosts }
      else match discardChar '\n' s with
        | .ok rest => parseItems directives virtualHosts rest
        | .abort => .abort
        | .err _ =>
            match parseDirective s with
            | .ok ((field, value), rest) =>
                parseItems (directives.insert field value) virtualHosts rest
            | .abort => .abort
            | .err _ =>
                match parseVirtualHost s with
                | .ok (virtualHost, rest) =>
                    parseItems directives (virtualHosts ++ [virtualHost]) rest
                | .abort => .abort
                | .err _ => .err configError := by
  rw [parseItems]
  by_cases ended : s = []
  · rw [if_pos ended, if_pos ended]
  · rw [if_neg ended, if_neg ended]
    split
    · next blank => rw [blank]
    · next blank => rw [blank]
    · next blank =>
        rw [blank]
        dsimp only
        split
        · next directive => rw [directive]
        · next directive => rw [directive]
        · next directive =>
            rw [directive]
            dsimp only
            split
            · next block => rw [block]
            · next block => rw [block]
            · next block =>
                rw [block]
                rfl

private theorem parseVirtualHost_line {line : Text} (unbroken : '\n' ∉ line) (rest : Text) :
    parseVirtualHost (line ++ '\n' :: rest) =
      if isTag openTag line then parseBlock ∅ rest else .err () := by
  rw [parseVirtualHost, parseOpenBlock_line unbroken]
  split
  · rfl
  · rfl

/-- **A line is a step.** -/
theorem parseFrom_line (state : ConfigState) {line : Text} (unbroken : '\n' ∉ line)
    (rest : Text) : parseFrom state (line ++ '\n' :: rest) =
      match state.step line with
      | some next => parseFrom next rest
      | none => .err configError := by
  cases state with
  | outside config =>
      have more : line ++ '\n' :: rest ≠ [] :=
        List.append_ne_nil_of_right_ne_nil _ (List.cons_ne_nil _ _)
      rw [parseFrom, parseItems_eq, if_neg more, discardChar_eq rfl, ConfigState.step]
      by_cases blank : line = []
      · subst blank
        have discarded : discardString ['\n'] ([] ++ '\n' :: rest) = .ok rest :=
          discardString_append ['\n'] rest
        rw [if_pos rfl, discarded]
        rfl
      · have visible : ¬ ['\n'] <+: line ++ '\n' :: rest := by
          obtain ⟨char, line, rfl⟩ := List.exists_cons_of_ne_nil blank
          rw [List.cons_append, List.cons_prefix_cons]
          exact fun same => unbroken (same.1 ▸ List.mem_cons_self)
        rw [if_neg blank, discardString_of_absent visible, parseDirective_line unbroken]
        dsimp only
        cases directiveLine line with
        | some directive => rfl
        | none =>
            dsimp only [Option.map_none, Outcome.okOr_none]
            rw [parseVirtualHost_line unbroken]
            by_cases opens : isTag openTag line = true
            · rw [if_pos opens, if_pos opens]
              rfl
            · rw [if_neg opens, if_neg opens]
  | inside config directives =>
      rw [parseFrom, parseBlock_line directives unbroken, ConfigState.step]
      cases directiveLine line with
      | some directive => rfl
      | none =>
          dsimp only
          by_cases closes : isTag closeTag line = true
          · rw [if_pos closes, if_pos closes]
            rfl
          · rw [if_neg closes, if_neg closes]

/-- What is not a line is refused, but a file may end outside a block. -/
theorem parseFrom_tail (state : ConfigState) {tail : Text} (unbroken : '\n' ∉ tail) :
    parseFrom state tail =
      match state with
      | .outside config => if tail = [] then .ok config else .err configError
      | .inside _ _ => .err configError := by
  have uncut : splitOnce tail ['\n'] = none := splitOnce_char_eq_none_iff.mpr unbroken
  have noDirective : parseDirective tail = .err () := by
    rw [parseDirective, uncut]
    rfl
  cases state with
  | outside config =>
      have noBlank : discardChar '\n' tail = .err () := by
        rw [discardChar_eq rfl]
        exact discardString_of_absent fun leading => unbroken (leading.subset List.mem_cons_self)
      have noBlock : parseVirtualHost tail = .err () := by
        rw [parseVirtualHost, parseOpenBlock, uncut]
        rfl
      rw [parseFrom, parseItems_eq, noBlank, noDirective, noBlock]
  | inside config directives =>
      have noBlock : parseBlock directives tail = .err () := by
        rw [parseBlock, parseDirectives_of_err directives noDirective, Outcome.ok_bind]
        dsimp only
        rw [parseCloseBlock, uncut]
        rfl
      rw [parseFrom, noBlock]

/-- The parser goes through the states of the lines. -/
theorem parseFrom_lines (state : ConfigState) {lines : List Text}
    (unbroken : ∀ line ∈ lines, '\n' ∉ line) (tail : Text) :
    parseFrom state (lines.flatMap (· ++ ['\n']) ++ tail) =
      match state.run lines with
      | some next => parseFrom next tail
      | none => .err configError := by
  induction lines generalizing state with
  | nil => rfl
  | cons line lines ih =>
      obtain ⟨first, others⟩ := List.forall_mem_cons.mp unbroken
      have whole : (line :: lines).flatMap (· ++ ['\n']) ++ tail =
          line ++ '\n' :: (lines.flatMap (· ++ ['\n']) ++ tail) := by
        rw [List.flatMap_cons, List.append_assoc, List.append_assoc]
        rfl
      rw [whole, parseFrom_line state first, ConfigState.run_cons]
      cases state.step line with
      | none => rfl
      | some next => exact ih next others

/-- The state before the first line. -/
def ConfigState.start : ConfigState := .outside ⟨∅, []⟩

/-- A file that begins with some lines is read from the state behind them on. -/
theorem parseServerConfig_lines {lines : List Text} (unbroken : ∀ line ∈ lines, '\n' ∉ line)
    (rest : Text) : parseServerConfig (lines.flatMap (· ++ ['\n']) ++ rest) =
      match ConfigState.start.run lines with
      | some state => parseFrom state rest
      | none => .err configError :=
  parseFrom_lines .start unbroken rest

/-- **What is accepted.** A file of ended lines after which no block is open. -/
theorem parseServerConfig_eq_ok_iff {s : Text} {config : ServerConfig} :
    parseServerConfig s = .ok config ↔ ∃ lines : List Text,
      (∀ line ∈ lines, '\n' ∉ line) ∧ s = lines.flatMap (· ++ ['\n']) ∧
        ConfigState.start.run lines = some (.outside config) := by
  constructor
  · intro accepted
    obtain ⟨lines, tail, rfl, unbroken, ended⟩ := exists_lines '\n' s
    rw [parseServerConfig_lines unbroken] at accepted
    split at accepted
    · next next reached =>
        rw [parseFrom_tail next ended] at accepted
        split at accepted
        · split at accepted
          · next empty =>
              cases accepted
              exact ⟨lines, unbroken, by rw [empty, List.append_nil], reached⟩
          · cases accepted
        · cases accepted
    · cases accepted
  · rintro ⟨lines, unbroken, rfl, reached⟩
    have read := parseServerConfig_lines unbroken []
    rw [List.append_nil, reached] at read
    exact read.trans ((parseItems_eq _ _ _).trans (if_pos rfl))

/-- Reading a configuration never aborts. -/
theorem parseServerConfig_returns (s : Text) : (parseServerConfig s).Returns := by
  obtain ⟨lines, tail, rfl, unbroken, ended⟩ := exists_lines '\n' s
  rw [parseServerConfig_lines unbroken]
  split
  · next next _ =>
      rw [parseFrom_tail next ended]
      split
      · split
        · exact .ok _
        · exact .err _
      · exact .err _
  · exact .err _

end RustHttpServer

import RustHttpServer.Config.Lines
import RustHttpServer.Host

/-!
# The blocks of a configuration file

An accepted file has a virtual host for each of its blocks, in their order
(`virtualHosts_of_accepted`), so one is chosen for a request if the file has a block at all
(`getVirtualHost_iff`). An empty line does no harm outside the blocks, and the last newline is
needed unless it ends an empty line (`parseServerConfig_edited_iff`).
-/

namespace RustHttpServer

open Foundation

namespace ConfigState

/-- What a line can do, one constructor for each of its kinds. -/
inductive Moves : ConfigState → Text → ConfigState → Prop
  | empty (config : ServerConfig) : Moves (outside config) [] (outside config)
  | directive (config : ServerConfig) {line : Text} {field : Directive} {value : Text}
      (said : directiveLine line = some (field, value)) :
      Moves (outside config) line
        (outside { config with directives := config.directives.insert field value })
  | opening (config : ServerConfig) {line : Text} (opens : isTag openTag line = true) :
      Moves (outside config) line (inside config ∅)
  | inner (config : ServerConfig) (directives : HashMap Directive Text) {line : Text}
      {field : Directive} {value : Text} (said : directiveLine line = some (field, value)) :
      Moves (inside config directives) line (inside config (directives.insert field value))
  | closing (config : ServerConfig) (directives : HashMap Directive Text) {line : Text}
      (closes : isTag closeTag line = true) :
      Moves (inside config directives) line
        (outside { config with virtualHosts := config.virtualHosts ++ [⟨directives⟩] })

/-- What a line can come to. -/
private theorem moves_of_step {state next : ConfigState} {line : Text}
    (stepped : state.step line = some next) : Moves state line next := by
  cases state with
  | outside config =>
      rw [step] at stepped
      split at stepped
      · next empty =>
          cases stepped
          rw [empty]
          exact .empty config
      · split at stepped
        · next said =>
            cases stepped
            exact .directive config said
        · split at stepped
          · next opens =>
              cases stepped
              exact .opening config opens
          · cases stepped
  | inside config directives =>
      rw [step] at stepped
      split at stepped
      · next said =>
          cases stepped
          exact .inner config directives said
      · split at stepped
        · next closes =>
            cases stepped
            exact .closing config directives closes
        · cases stepped

end ConfigState

/-! ### The beginning of a line -/

private theorem openTag_leads {line : Text} (opens : isTag openTag line = true) :
    openTag <+: line := by
  obtain ⟨rest, rfl, _⟩ := isTag_eq_true_iff.mp opens
  exact List.prefix_append _ _

private theorem closeTag_leads {line : Text} (closes : isTag closeTag line = true) :
    closeTag <+: line := by
  obtain ⟨rest, rfl, _⟩ := isTag_eq_true_iff.mp closes
  exact List.prefix_append _ _

/-- No line begins like one that opens and one that closes a block. -/
theorem not_openTag_leads {line : Text} (closing : closeTag <+: line) : ¬ openTag <+: line := by
  obtain ⟨rest, rfl⟩ := closing
  intro opening
  have second := (List.cons_prefix_cons.mp (List.cons_prefix_cons.mp opening).2).1
  revert second
  decide

/-- A directive begins neither way. -/
theorem not_prefix_of_directiveLine {line : Text} {directive : Directive × Text}
    (said : directiveLine line = some directive) :
    ¬ openTag <+: line ∧ ¬ closeTag <+: line := by
  have bracket : ∀ rest, line ≠ '<' :: rest := by
    rintro rest rfl
    rw [directiveLine_of_bracket] at said
    cases said
  constructor
  · rintro ⟨rest, rfl⟩
    exact bracket _ rfl
  · rintro ⟨rest, rfl⟩
    exact bracket _ rfl

/-! ### Virtual hosts -/

/-- The lines of each block, behind its opening and before its closing line. -/
def blocks : List Text → List (List Text)
  | [] => []
  | line :: lines =>
      if isTag openTag line then
        (lines.takeWhile fun line => !isTag closeTag line) :: blocks lines
      else blocks lines

/-- The virtual host of a block. -/
def blockHost (lines : List Text) : VirtualHost where
  directives := HashMap.insertAll ∅ (lines.filterMap directiveLine)

private theorem blocks_of_other {line : Text} (other : ¬ openTag <+: line) (lines : List Text) :
    blocks (line :: lines) = blocks lines :=
  if_neg (other ∘ openTag_leads)

/-- Each block that is closed gives a virtual host. -/
theorem virtualHosts_of_run (lines : List Text) {final : ServerConfig} :
    (∀ config : ServerConfig, (ConfigState.outside config).run lines = some (.outside final) →
      final.virtualHosts = config.virtualHosts ++ (blocks lines).map blockHost) ∧
    ∀ (config : ServerConfig) (directives : HashMap Directive Text),
      (ConfigState.inside config directives).run lines = some (.outside final) →
      final.virtualHosts = config.virtualHosts ++
        { directives := directives.insertAll
            ((lines.takeWhile fun line => !isTag closeTag line).filterMap directiveLine) } ::
          (blocks lines).map blockHost := by
  induction lines with
  | nil =>
      constructor
      · intro config reached
        cases reached
        rw [blocks, List.map_nil, List.append_nil]
      · intro config directives reached
        cases reached
  | cons line lines ih =>
      constructor
      · intro config reached
        rw [ConfigState.run_cons, Option.bind_eq_some_iff] at reached
        obtain ⟨next, stepped, reached⟩ := reached
        cases ConfigState.moves_of_step stepped with
        | empty => exact ih.1 config reached
        | directive _ said =>
            have hosts := ih.1 _ reached
            rw [blocks_of_other (not_prefix_of_directiveLine said).1]
            exact hosts
        | opening _ opens =>
            rw [blocks, if_pos opens]
            exact ih.2 config ∅ reached
      · intro config directives reached
        rw [ConfigState.run_cons, Option.bind_eq_some_iff] at reached
        obtain ⟨next, stepped, reached⟩ := reached
        cases ConfigState.moves_of_step stepped with
        | inner _ _ said =>
            obtain ⟨noOpening, noClosing⟩ := not_prefix_of_directiveLine said
            have open_ : isTag closeTag line = false :=
              Bool.eq_false_iff.mpr (noClosing ∘ closeTag_leads)
            rw [blocks_of_other noOpening, List.takeWhile_cons_of_pos (by rw [open_]; rfl),
              List.filterMap_cons_some said]
            exact ih.2 config _ reached
        | closing _ _ closes =>
            have noOpening := not_openTag_leads (closeTag_leads closes)
            rw [blocks_of_other noOpening, List.takeWhile_cons_of_neg (by rw [closes]; decide)]
            have hosts := ih.1 _ reached
            rw [hosts, List.append_assoc]
            rfl

private theorem newline_ne_nil : ['\n'] ≠ [] := List.cons_ne_nil _ _

/-- The lines of a file: everything up to its last newline. -/
def fileLines (s : Text) : List Text := (split s ['\n'] newline_ne_nil).dropLast

private theorem fileLines_flatMap {lines : List Text} (unbroken : ∀ line ∈ lines, '\n' ∉ line) :
    fileLines (lines.flatMap (· ++ ['\n'])) = lines := by
  have pieces := @split_flatMap _ _ _ newline_ne_nil lines unbroken [] List.not_mem_nil
  rw [List.append_nil] at pieces
  rw [fileLines, pieces, List.dropLast_concat]

/-- **Virtual hosts.** An accepted file has one for each of its blocks, in their order. -/
theorem virtualHosts_of_accepted {s : Text} {config : ServerConfig}
    (accepted : parseServerConfig s = .ok config) :
    config.virtualHosts = (blocks (fileLines s)).map blockHost := by
  obtain ⟨lines, unbroken, rfl, reached⟩ := parseServerConfig_eq_ok_iff.mp accepted
  rw [fileLines_flatMap unbroken]
  exact (virtualHosts_of_run lines).1 _ reached

private theorem blocks_ne_nil_iff {lines : List Text} :
    blocks lines ≠ [] ↔ ∃ line ∈ lines, isTag openTag line = true := by
  induction lines with
  | nil => exact iff_of_false (fun some => some rfl) nofun
  | cons line lines ih =>
      rw [List.exists_mem_cons_iff, blocks]
      by_cases opens : isTag openTag line = true
      · rw [if_pos opens]
        exact iff_of_true (List.cons_ne_nil _ _) (.inl opens)
      · rw [if_neg opens, ih]
        exact (or_iff_right opens).symm

/-- A line of an accepted file that begins like an opening line is one. -/
theorem isTag_of_run {lines : List Text} {state final : ConfigState}
    (reached : state.run lines = some final) {line : Text} (inside : line ∈ lines)
    (opening : openTag <+: line) : isTag openTag line = true := by
  induction lines generalizing state with
  | nil => cases inside
  | cons first lines ih =>
      rw [ConfigState.run_cons, Option.bind_eq_some_iff] at reached
      obtain ⟨next, stepped, reached⟩ := reached
      rcases List.mem_cons.mp inside with rfl | inside
      · cases ConfigState.moves_of_step stepped with
        | empty => exact absurd (List.prefix_nil.mp opening) (by decide)
        | directive _ said => exact absurd opening (not_prefix_of_directiveLine said).1
        | opening _ opens => exact opens
        | inner _ _ said => exact absurd opening (not_prefix_of_directiveLine said).1
        | closing _ _ closes => exact absurd opening (not_openTag_leads (closeTag_leads closes))
      · exact ih reached inside

/-! ### Selection -/

/-- The virtual host has a name. -/
def VirtualHost.Named (virtualHost : VirtualHost) (host : Text) : Prop :=
  virtualHost.directives.lookup .serverName = some host

instance (virtualHost : VirtualHost) (host : Text) : Decidable (virtualHost.Named host) :=
  inferInstanceAs (Decidable (virtualHost.directives.lookup .serverName = some host))

/-- The first virtual host of a name, or the first of all if none has it. -/
def Selected (virtualHosts : List VirtualHost) (host : Text) (virtualHost : VirtualHost) : Prop :=
  (∃ before after, virtualHosts = before ++ virtualHost :: after ∧ virtualHost.Named host ∧
      ∀ other ∈ before, ¬other.Named host) ∨
    (∀ other ∈ virtualHosts, ¬other.Named host) ∧ virtualHosts.head? = some virtualHost

/-- `get_virtual_host` selects one of some virtual hosts. -/
theorem getVirtualHost_selected {virtualHosts : List VirtualHost} (some : virtualHosts ≠ [])
    (host : Text) (ε : Type) : ∃ virtualHost,
      (getVirtualHost virtualHosts host : Outcome ε VirtualHost) = .ok virtualHost ∧
        Selected virtualHosts host virtualHost := by
  rw [getVirtualHost]
  cases found : virtualHosts.find? fun virtualHost =>
      virtualHost.directives.lookup .serverName = .some host with
  | some virtualHost =>
      obtain ⟨named, before, after, whole, others⟩ := List.find?_eq_some_iff_append.mp found
      refine ⟨virtualHost, rfl, .inl ⟨before, after, whole, of_decide_eq_true named, ?_⟩⟩
      intro other inside named
      have unnamed := others other inside
      rw [Bool.not_eq_true', decide_eq_false_iff_not] at unnamed
      exact unnamed named
  | none =>
      have others := List.find?_eq_none.mp found
      obtain ⟨virtualHost, rest, rfl⟩ := List.exists_cons_of_ne_nil some
      refine ⟨virtualHost, rfl, .inr ⟨fun other inside named => ?_, rfl⟩⟩
      exact others other inside (decide_eq_true named)

/-- **Virtual-host selection.** For every name a virtual host of the file is selected, exactly
if one of the lines of the file opens a block. -/
theorem getVirtualHost_iff {s : Text} {config : ServerConfig}
    (accepted : parseServerConfig s = .ok config) :
    (∀ host : Text, ∃ virtualHost,
      (getVirtualHost config.virtualHosts host : Outcome HttpError VirtualHost) = .ok virtualHost ∧
        Selected ((blocks (fileLines s)).map blockHost) host virtualHost) ↔
      ∃ line ∈ fileLines s, openTag <+: line := by
  have openings : (∃ line ∈ fileLines s, openTag <+: line) ↔ blocks (fileLines s) ≠ [] := by
    obtain ⟨lines, unbroken, rfl, reached⟩ := parseServerConfig_eq_ok_iff.mp accepted
    rw [fileLines_flatMap unbroken, blocks_ne_nil_iff]
    constructor
    · rintro ⟨line, inside, opening⟩
      exact ⟨line, inside, isTag_of_run reached inside opening⟩
    · rintro ⟨line, inside, opens⟩
      exact ⟨line, inside, openTag_leads opens⟩
  rw [openings, virtualHosts_of_accepted accepted]
  constructor
  · intro selects none
    obtain ⟨virtualHost, chosen, _⟩ := selects []
    rw [none] at chosen
    cases chosen
  · intro some host
    exact getVirtualHost_selected (List.map_eq_nil_iff.not.mpr some) host HttpError

/-- A file with two blocks of which neither has the name. -/
theorem getVirtualHost_iff_blocks :
    ∃ config, parseServerConfig
        "<VirtualHost>\n</VirtualHost>\n<VirtualHost>\nServerName b\n</VirtualHost>\n".toList =
          .ok config ∧
      ∀ host : Text, ∃ virtualHost,
        (getVirtualHost config.virtualHosts host : Outcome HttpError VirtualHost) =
            .ok virtualHost ∧
          Selected ((blocks (fileLines
            "<VirtualHost>\n</VirtualHost>\n<VirtualHost>\nServerName b\n</VirtualHost>\n".toList)).map
              blockHost) host virtualHost := by
  have unbroken : ∀ line ∈ ["<VirtualHost>".toList, "</VirtualHost>".toList, "<VirtualHost>".toList,
      "ServerName b".toList, "</VirtualHost>".toList], '\n' ∉ line := by decide
  have accepted := (parseServerConfig_lines unbroken []).trans (parseFrom_tail _ List.not_mem_nil)
  have lines := fileLines_flatMap unbroken
  refine ⟨_, accepted, (getVirtualHost_iff accepted).mpr ?_⟩
  exact ⟨"<VirtualHost>".toList, lines.symm ▸ List.mem_cons_self, by decide⟩

/-- The empty file is accepted, and there is nothing to be selected. -/
theorem getVirtualHost_empty :
    ∃ config, parseServerConfig [] = .ok config ∧
      (getVirtualHost config.virtualHosts "site".toList : Outcome HttpError VirtualHost) = .abort :=
  ⟨⟨∅, []⟩, parseServerConfig_eq_ok_iff.mpr ⟨[], List.forall_mem_nil _, rfl, rfl⟩, rfl⟩

/-! ### Edits -/

/-- Behind the last line that opens a block no line closes it. -/
def EndsInBlock (lines : List Text) : Prop :=
  ∃ earlier opening later, lines = earlier ++ opening :: later ∧ openTag <+: opening ∧
    ∀ line ∈ later, ¬ closeTag <+: line

/-- A last line that opens a block ends in it, one that closes it does not, and others make no
difference. -/
private theorem endsInBlock_concat_iff {lines : List Text} {line : Text} :
    EndsInBlock (lines ++ [line]) ↔
      openTag <+: line ∨ EndsInBlock lines ∧ ¬ closeTag <+: line := by
  constructor
  · rintro ⟨earlier, opening, later, whole, opens, unclosed⟩
    rcases List.eq_nil_or_concat' later with rfl | ⟨later, last, rfl⟩
    · obtain ⟨rfl, same⟩ := List.append_inj' whole rfl
      obtain rfl := List.singleton_inj.mp same
      exact .inl opens
    · rw [← List.cons_append, ← List.append_assoc] at whole
      obtain ⟨rfl, same⟩ := List.append_inj' whole rfl
      obtain rfl := List.singleton_inj.mp same
      obtain ⟨others, last⟩ := List.forall_mem_append.mp unclosed
      exact .inr ⟨⟨earlier, opening, later, rfl, opens, others⟩,
        last line (List.mem_singleton_self line)⟩
  · rintro (opens | ⟨⟨earlier, opening, later, rfl, opens, unclosed⟩, last⟩)
    · exact ⟨lines, line, [], rfl, opens, List.forall_mem_nil _⟩
    · refine ⟨earlier, opening, later ++ [line], ?_, opens, ?_⟩
      · rw [List.append_assoc, List.cons_append]
      · exact List.forall_mem_append.mpr ⟨unclosed, List.forall_mem_singleton.mpr last⟩

/-- A block is open. -/
def ConfigState.isInside : ConfigState → Bool
  | outside _ => false
  | inside _ _ => true

/-- A block is open behind lines of which the last opening one is not closed. -/
theorem endsInBlock_iff {lines : List Text} {state : ConfigState}
    (reached : ConfigState.start.run lines = some state) :
    EndsInBlock lines ↔ state.isInside = true := by
  induction lines using List.reverseRecOn generalizing state with
  | nil =>
      cases reached
      refine iff_of_false ?_ Bool.false_ne_true
      rintro ⟨earlier, opening, later, whole, _⟩
      exact absurd whole.symm (List.append_ne_nil_of_right_ne_nil _ (List.cons_ne_nil _ _))
  | append_singleton lines line ih =>
      rw [ConfigState.run_append, Option.bind_eq_some_iff] at reached
      obtain ⟨before, reached, stepped⟩ := reached
      rw [ConfigState.run_cons, Option.bind_eq_some_iff] at stepped
      obtain ⟨next, stepped, same⟩ := stepped
      cases same
      have earlier := ih reached
      rw [endsInBlock_concat_iff, earlier]
      cases ConfigState.moves_of_step stepped with
      | empty =>
          have other : ¬ openTag <+: [] := fun opens =>
            absurd (List.prefix_nil.mp opens) (List.cons_ne_nil _ _)
          exact iff_of_false (not_or.mpr ⟨other, fun both => Bool.false_ne_true both.1⟩)
            Bool.false_ne_true
      | directive _ said =>
          have other := (not_prefix_of_directiveLine said).1
          exact iff_of_false (not_or.mpr ⟨other, fun both => Bool.false_ne_true both.1⟩)
            Bool.false_ne_true
      | opening _ opens => exact iff_of_true (.inl (openTag_leads opens)) rfl
      | inner _ _ said => exact iff_of_true (.inr ⟨rfl, (not_prefix_of_directiveLine said).2⟩) rfl
      | closing _ _ closes =>
          have closing := closeTag_leads closes
          exact iff_of_false (not_or.mpr ⟨not_openTag_leads closing, fun both => both.2 closing⟩)
            Bool.false_ne_true

/-- The beginning or the end of a line. -/
def AtLineBoundary (text : Text) : Prop := text = [] ∨ text.getLast? = some '\n'

/-- Behind full lines stands a line boundary, unless there is the beginning of another line. -/
private theorem atLineBoundary_lines {lines : List Text} {tail : Text} (ended : '\n' ∉ tail) :
    AtLineBoundary (lines.flatMap (· ++ ['\n']) ++ tail) ↔ tail = [] := by
  constructor
  · rintro (empty | last)
    · exact (List.append_eq_nil_iff.mp empty).2
    · by_contra more
      rw [List.getLast?_append_of_ne_nil _ more] at last
      exact ended (List.mem_of_getLast? last)
  · rintro rfl
    rcases List.eq_nil_or_concat' lines with rfl | ⟨lines, line, rfl⟩
    · exact .inl rfl
    · refine .inr ?_
      simp

/-- What is accepted behind some lines is accepted from the state behind them on. -/
theorem accepted_lines_iff {lines : List Text} (unbroken : ∀ line ∈ lines, '\n' ∉ line)
    {rest : Text} {config : ServerConfig} :
    parseServerConfig (lines.flatMap (· ++ ['\n']) ++ rest) = .ok config ↔
      ∃ state, ConfigState.start.run lines = some state ∧ parseFrom state rest = .ok config := by
  rw [parseServerConfig_lines unbroken]
  cases ConfigState.start.run lines with
  | none => exact iff_of_false nofun nofun
  | some state => simp only [Option.some.injEq, exists_eq_left']

/-- An empty line is accepted if no block is open. -/
theorem parseFrom_empty_iff {state : ConfigState} {rest : Text} {config : ServerConfig} :
    parseFrom state ('\n' :: rest) = .ok config ↔
      state.isInside = false ∧ parseFrom state rest = .ok config := by
  have stepped := @parseFrom_line state [] List.not_mem_nil rest
  rw [List.nil_append] at stepped
  rw [stepped]
  cases state with
  | outside before => exact (and_iff_right rfl).symm
  | inside before directives =>
      exact iff_of_false nofun fun both => Bool.false_ne_true both.1.symm

/-- **Edits of a configuration file.** An empty line may be put in at the end of a line exactly
if no block is open there, and the last newline may be left out exactly if the file is empty
without it or still ends with a newline. -/
theorem parseServerConfig_edited_iff {s : Text} {config : ServerConfig}
    (accepted : parseServerConfig s = .ok config) :
    (∀ before after : Text, s = before ++ after → AtLineBoundary before →
      (parseServerConfig (before ++ '\n' :: after) = .ok config ↔
        ¬EndsInBlock (fileLines before))) ∧
    ∀ text : Text, s = text ++ ['\n'] →
      (parseServerConfig text = .ok config ↔ AtLineBoundary text) := by
  constructor
  · rintro before after rfl boundary
    obtain ⟨lines, tail, rfl, unbroken, ended⟩ := exists_lines '\n' before
    obtain rfl := (atLineBoundary_lines ended).mp boundary
    rw [List.append_nil] at accepted ⊢
    obtain ⟨state, reached, accepted⟩ := (accepted_lines_iff unbroken).mp accepted
    rw [fileLines_flatMap unbroken, accepted_lines_iff unbroken, endsInBlock_iff reached,
      Bool.not_eq_true, reached]
    simp only [Option.some.injEq, exists_eq_left', parseFrom_empty_iff, accepted, and_true]
  · rintro text rfl
    obtain ⟨lines, tail, rfl, unbroken, ended⟩ := exists_lines '\n' text
    rw [atLineBoundary_lines ended]
    rw [List.append_assoc, accepted_lines_iff unbroken] at accepted
    obtain ⟨state, reached, accepted⟩ := accepted
    rw [accepted_lines_iff unbroken, reached]
    simp only [Option.some.injEq, exists_eq_left']
    constructor
    · intro shorter
      rw [parseFrom_tail state ended] at shorter
      split at shorter
      · split at shorter
        · assumption
        · cases shorter
      · cases shorter
    · rintro rfl
      exact (parseFrom_empty_iff.mp accepted).2

/-- A file with one block: an empty line before it does no harm, and one behind it ends it
without the last newline. -/
theorem parseServerConfig_edited_iff_block :
    ∃ config, parseServerConfig "<VirtualHost>\n</VirtualHost>\n\n".toList = .ok config ∧
      parseServerConfig ("\n<VirtualHost>\n</VirtualHost>\n\n".toList) = .ok config ∧
      parseServerConfig "<VirtualHost>\n</VirtualHost>\n".toList = .ok config := by
  have unbroken : ∀ line ∈ ["<VirtualHost>".toList, "</VirtualHost>".toList, []], '\n' ∉ line := by
    decide
  have accepted := (parseServerConfig_lines unbroken []).trans (parseFrom_tail _ List.not_mem_nil)
  obtain ⟨inserted, removed⟩ := parseServerConfig_edited_iff accepted
  refine ⟨_, accepted, (inserted [] _ rfl (.inl rfl)).mpr ?_, (removed _ rfl).mpr (.inr rfl)⟩
  rintro ⟨earlier, opening, later, whole, _⟩
  have nothing : fileLines [] = [] := @fileLines_flatMap [] (List.forall_mem_nil _)
  rw [nothing] at whole
  exact absurd whole.symm (List.append_ne_nil_of_right_ne_nil _ (List.cons_ne_nil _ _))

/-- An empty line inside a block, and a file that ends with its last tag. -/
theorem parseServerConfig_edited_refused :
    ∃ config, parseServerConfig "<VirtualHost>\n</VirtualHost>\n".toList = .ok config ∧
      parseServerConfig "<VirtualHost>\n\n</VirtualHost>\n".toList = .err configError ∧
      parseServerConfig "<VirtualHost>\n</VirtualHost>".toList = .err configError := by
  have both : ∀ line ∈ ["<VirtualHost>".toList, "</VirtualHost>".toList], '\n' ∉ line := by decide
  have first : ∀ line ∈ ["<VirtualHost>".toList], '\n' ∉ line := by decide
  have three : ∀ line ∈ ["<VirtualHost>".toList, [], "</VirtualHost>".toList], '\n' ∉ line := by
    decide
  refine ⟨_, (parseServerConfig_lines both []).trans (parseFrom_tail _ List.not_mem_nil), ?_, ?_⟩
  · exact parseServerConfig_lines three []
  · refine (parseServerConfig_lines first "</VirtualHost>".toList).trans (parseFrom_tail _ ?_)
    decide

end RustHttpServer

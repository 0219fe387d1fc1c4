import RustHttpServer.Config.Lines

/-!
# Printed configurations are read back

A configuration is printed as the lines of the directives of the server, in any order, and
then the blocks of its virtual hosts, with empty lines between them and the directive lines
indented. What is printed is read back as the configuration (`parseServerConfig_printed`).
-/

namespace RustHttpServer

open Foundation

/-- A directive as it is printed on a line. The value is one line without outer whitespace. -/
structure PrintedDirective where
  indentation : Text
  field : Directive
  value : Text
  blank : ∀ char ∈ indentation, Text.isWhitespace char = true
  indented : '\n' ∉ indentation
  nonempty : value ≠ []
  trimmed : value.trim = value
  unbroken : '\n' ∉ value

/-- The block of a virtual host as it is printed, with some text in its opening tag. -/
structure PrintedBlock where
  arguments : Text
  unbroken : '\n' ∉ arguments
  directives : List PrintedDirective

/-- A configuration as it is printed, with some empty lines before each directive of the
server, before each block and at the end. -/
structure PrintedConfig where
  directives : List (Nat × PrintedDirective)
  blocks : List (Nat × PrintedBlock)
  emptyLines : Nat

namespace PrintedDirective

/-- What is printed. -/
def entry (printed : PrintedDirective) : Directive × Text := (printed.field, printed.value)

/-- The line. -/
def line (printed : PrintedDirective) : Text :=
  printed.indentation ++ (printed.field.name ++ [' '] ++ printed.value)

/-- A printed directive takes one line. -/
theorem newline_not_mem_line (printed : PrintedDirective) : '\n' ∉ printed.line := by
  have name : '\n' ∉ printed.field.name := by cases printed.field <;> decide
  simp only [line, List.mem_append, not_or]
  exact ⟨printed.indented, ⟨name, by decide⟩, printed.unbroken⟩

/-- The line is read back as the directive. -/
theorem directiveLine_line (printed : PrintedDirective) :
    directiveLine printed.line = some printed.entry := by
  have trimmed : Text.trim printed.line = printed.field.name ++ [' '] ++ printed.value := by
    rw [line, Text.trim_append printed.blank]
    apply Text.trim_of_ends
    · intro char first
      cases named : printed.field <;> (rw [named] at first; cases first; rfl)
    · intro char last
      rw [List.getLast?_append_of_ne_nil _ printed.nonempty, ← printed.trimmed] at last
      exact Text.isWhitespace_of_getLast?_trim last
  have cut : splitOnce (Text.trim printed.line) [' '] =
      some (printed.field.name, printed.value) := by
    refine splitOnce_char_iff.mpr ⟨by rw [trimmed, List.append_assoc]; rfl, ?_⟩
    cases printed.field <;> decide
  rw [directiveLine, cut, Option.bind_eq_bind, Option.bind_some]
  dsimp only
  rw [Directive.fromStr_eq_some_iff.mpr rfl]
  rfl

end PrintedDirective

namespace PrintedBlock

/-- The lines of the block. -/
def lines (printed : PrintedBlock) : List Text :=
  (openTag ++ printed.arguments ++ ['>']) ::
    (printed.directives.map PrintedDirective.line ++ [closeTag ++ ['>']])

/-- The virtual host of the block. -/
def virtualHost (printed : PrintedBlock) : VirtualHost where
  directives := HashMap.insertAll ∅ (printed.directives.map PrintedDirective.entry)

private theorem newline_not_mem_lines (printed : PrintedBlock) :
    ∀ line ∈ printed.lines, '\n' ∉ line := by
  refine List.forall_mem_cons.mpr ⟨?_, List.forall_mem_append.mpr ⟨?_, ?_⟩⟩
  · simp only [List.mem_append, not_or]
    exact ⟨⟨by decide, printed.unbroken⟩, by decide⟩
  · exact List.forall_mem_map.mpr fun directive _ => directive.newline_not_mem_line
  · decide

end PrintedBlock

namespace ConfigState

/-- Some empty lines. -/
theorem run_emptyLines (config : ServerConfig) (count : Nat) :
    (outside config).run (List.replicate count []) = some (outside config) := by
  induction count with
  | zero => rfl
  | succ count ih =>
      rw [List.replicate_succ, run_cons]
      exact ih

private theorem step_outside_directive (config : ServerConfig) (printed : PrintedDirective) :
    (outside config).step printed.line = some (outside { config with
      directives := config.directives.insert printed.field printed.value }) := by
  have visible : printed.line ≠ [] := by
    intro empty
    have said := printed.directiveLine_line
    rw [empty] at said
    cases said
  rw [step, if_neg visible, printed.directiveLine_line]
  rfl

/-- The directives of the server. -/
theorem run_outside_directives (config : ServerConfig)
    (directives : List (Nat × PrintedDirective)) :
    (outside config).run (directives.flatMap fun (count, printed) =>
        List.replicate count [] ++ [printed.line]) =
      some (outside { config with directives :=
        config.directives.insertAll (directives.map fun (_, printed) => printed.entry) }) := by
  induction directives generalizing config with
  | nil => rfl
  | cons first directives ih =>
      obtain ⟨count, printed⟩ := first
      rw [List.flatMap_cons, run_append, run_append, run_emptyLines, Option.bind_some, run_cons,
        step_outside_directive, Option.bind_some, run_nil, Option.bind_some, ih]
      rfl

/-- The directives of a block. -/
theorem run_inside_directives (config : ServerConfig) (directives : HashMap Directive Text)
    (printed : List PrintedDirective) :
    (inside config directives).run (printed.map PrintedDirective.line) =
      some (inside config (directives.insertAll (printed.map PrintedDirective.entry))) := by
  induction printed generalizing directives with
  | nil => rfl
  | cons first printed ih =>
      have stepped : (inside config directives).step first.line =
          some (inside config (directives.insert first.field first.value)) := by
        rw [step, first.directiveLine_line]
        rfl
      rw [List.map_cons, run_cons, stepped, Option.bind_some, ih]
      rfl

/-- A block. -/
theorem run_block (config : ServerConfig) (printed : PrintedBlock) :
    (outside config).run printed.lines = some (outside { config with
      virtualHosts := config.virtualHosts ++ [printed.virtualHost] }) := by
  have opened : (outside config).step (openTag ++ printed.arguments ++ ['>']) =
      some (inside config ∅) := by
    have tag : isTag openTag (openTag ++ printed.arguments ++ ['>']) = true := by
      refine isTag_eq_true_iff.mpr ⟨_, List.append_assoc _ _ _, ?_⟩
      rw [List.getLast?_append_of_ne_nil _ (List.cons_ne_nil _ _)]
      rfl
    have said : directiveLine (openTag ++ printed.arguments ++ ['>']) = none :=
      directiveLine_of_bracket _
    have visible : openTag ++ printed.arguments ++ ['>'] ≠ [] :=
      List.append_ne_nil_of_right_ne_nil _ (List.cons_ne_nil _ _)
    rw [step, if_neg visible, said]
    dsimp only
    rw [if_pos tag]
  have closed : ∀ directives, (inside config directives).step (closeTag ++ ['>']) =
      some (outside { config with virtualHosts := config.virtualHosts ++ [⟨directives⟩] }) :=
    fun _ => rfl
  rw [PrintedBlock.lines, run_cons, opened, Option.bind_some, run_append, run_inside_directives,
    Option.bind_some, run_cons, closed]
  rfl

/-- The blocks of a configuration. -/
theorem run_blocks (config : ServerConfig) (blocks : List (Nat × PrintedBlock)) :
    (outside config).run (blocks.flatMap fun (count, printed) =>
        List.replicate count [] ++ printed.lines) =
      some (outside { config with virtualHosts :=
        config.virtualHosts ++ blocks.map fun (_, printed) => printed.virtualHost }) := by
  induction blocks generalizing config with
  | nil => rw [List.map_nil, List.append_nil]; rfl
  | cons first blocks ih =>
      obtain ⟨count, printed⟩ := first
      rw [List.flatMap_cons, run_append, run_append, run_emptyLines, Option.bind_some, run_block,
        Option.bind_some, ih, List.map_cons, List.append_assoc]
      rfl

end ConfigState

namespace PrintedConfig

/-- The lines of the configuration. -/
def lines (printed : PrintedConfig) : List Text :=
  (printed.directives.flatMap fun (count, directive) =>
      List.replicate count [] ++ [directive.line]) ++
    (printed.blocks.flatMap fun (count, block) => List.replicate count [] ++ block.lines) ++
      List.replicate printed.emptyLines []

/-- The text of the configuration. -/
def text (printed : PrintedConfig) : Text := printed.lines.flatMap (· ++ ['\n'])

/-- The directives of the server are printed, each once, and those of each virtual host. -/
structure Prints (printed : PrintedConfig) (config : ServerConfig) : Prop where
  directives : config.directives.Lists
    (printed.directives.map fun (_, directive) => directive.entry)
  virtualHosts : List.Forall₂
    (fun ((_, block) : Nat × PrintedBlock) virtualHost =>
      virtualHost.directives.Lists (block.directives.map PrintedDirective.entry))
    printed.blocks config.virtualHosts

private theorem newline_not_mem_lines (printed : PrintedConfig) :
    ∀ line ∈ printed.lines, '\n' ∉ line := by
  have empty : ∀ count, ∀ line ∈ List.replicate count ([] : Text), '\n' ∉ line := by
    intro count line inside
    rw [List.eq_of_mem_replicate inside]
    exact List.not_mem_nil
  refine List.forall_mem_append.mpr ⟨List.forall_mem_append.mpr ⟨?_, ?_⟩, empty _⟩
  · refine List.forall_mem_flatMap.mpr fun (count, directive) _ => ?_
    refine List.forall_mem_append.mpr ⟨empty count, List.forall_mem_singleton.mpr ?_⟩
    exact directive.newline_not_mem_line
  · refine List.forall_mem_flatMap.mpr fun (count, block) _ => ?_
    exact List.forall_mem_append.mpr ⟨empty count, block.newline_not_mem_lines⟩

/-- **Configurations are read back.** -/
theorem parseServerConfig_printed {printed : PrintedConfig} {config : ServerConfig}
    (prints : printed.Prints config) : parseServerConfig printed.text = .ok config := by
  refine parseServerConfig_eq_ok_iff.mpr ⟨printed.lines, printed.newline_not_mem_lines, rfl, ?_⟩
  have hosts : (printed.blocks.map fun (_, block) => block.virtualHost) =
      config.virtualHosts := by
    rw [← List.forall₂_eq_eq_eq, List.forall₂_map_left_iff]
    exact prints.virtualHosts.imp fun _ _ lists => congrArg VirtualHost.mk lists.insertAll_eq
  rw [lines, ConfigState.run_append, ConfigState.run_append, ConfigState.start,
    ConfigState.run_outside_directives,
    Option.bind_some, ConfigState.run_blocks, Option.bind_some, ConfigState.run_emptyLines,
    prints.directives.insertAll_eq, hosts, List.nil_append]

/-- A configuration with one virtual host. -/
theorem parseServerConfig_printed_host :
    ∃ printed : PrintedConfig,
      printed.text =
        "\nListen 8080\n<VirtualHost *:8080>\n\tServerName <site>\n</VirtualHost>\n".toList ∧
      parseServerConfig printed.text = .ok {
        directives := HashMap.ofEntries [(.listenPort, "8080".toList)]
        virtualHosts :=
          [{ directives := HashMap.ofEntries [(.serverName, "<site>".toList)] }] } := by
  let listen : PrintedDirective := {
    indentation := []
    field := .listenPort
    value := "8080".toList
    blank := List.forall_mem_nil _
    indented := by decide
    nonempty := by decide
    trimmed := by decide
    unbroken := by decide }
  let name : PrintedDirective := {
    indentation := ['\t']
    field := .serverName
    value := "<site>".toList
    blank := List.forall_mem_singleton.mpr rfl
    indented := by decide
    nonempty := by decide
    trimmed := by decide
    unbroken := by decide }
  let block : PrintedBlock := {
    arguments := " *:8080".toList
    unbroken := by decide
    directives := [name] }
  refine ⟨⟨[(1, listen)], [(0, block)], 0⟩, by decide, parseServerConfig_printed ⟨?_, ?_⟩⟩
  · exact HashMap.lists_ofEntries (List.nodup_singleton _)
  · exact .cons (HashMap.lists_ofEntries (List.nodup_singleton _)) .nil

/-- The value can stand on a line. -/
structure PrintableValue (value : Text) : Prop where
  nonempty : value ≠ []
  trimmed : value.trim = value
  unbroken : '\n' ∉ value

/-- Directives with such values are printed, each once. -/
theorem exists_printedDirectives {directives : HashMap Directive Text}
    (printable : ∀ field value, directives.lookup field = some value → PrintableValue value) :
    ∃ printed : List PrintedDirective,
      directives.Lists (printed.map PrintedDirective.entry) := by
  have distinct : [Directive.cacheSize, .documentRoot, .listenPort, .serverName,
      .threadPoolSize].Nodup := by decide
  let order : IterOrder Directive Text :=
    .ofKeys _ distinct fun directive => by cases directive <;> decide
  have values : ∀ entry ∈ order.entries directives, PrintableValue entry.2 := fun entry inside =>
    printable entry.1 entry.2 ((order.mem_iff directives entry.1 entry.2).mp inside)
  refine ⟨(order.entries directives).attach.map fun entry => {
    indentation := []
    field := entry.1.1
    value := entry.1.2
    blank := List.forall_mem_nil _
    indented := List.not_mem_nil
    nonempty := (values entry.1 entry.2).nonempty
    trimmed := (values entry.1 entry.2).trimmed
    unbroken := (values entry.1 entry.2).unbroken }, ?_⟩
  rw [List.map_map]
  exact (List.attach_map_subtype_val (order.entries directives)).symm ▸ order.lists directives

/-- Every configuration with such values is printed in some way. -/
theorem exists_prints {config : ServerConfig}
    (printable : ∀ field value, config.directives.lookup field = some value → PrintableValue value)
    (hosts : ∀ virtualHost ∈ config.virtualHosts, ∀ field value,
      virtualHost.directives.lookup field = some value → PrintableValue value) :
    ∃ printed : PrintedConfig, printed.Prints config := by
  obtain ⟨directives, lists⟩ := exists_printedDirectives printable
  have blocks : ∃ blocks : List (Nat × PrintedBlock), List.Forall₂
      (fun ((_, block) : Nat × PrintedBlock) virtualHost =>
        virtualHost.directives.Lists (block.directives.map PrintedDirective.entry))
      blocks config.virtualHosts := by
    generalize config.virtualHosts = virtualHosts at hosts
    induction virtualHosts with
    | nil => exact ⟨[], .nil⟩
    | cons virtualHost virtualHosts ih =>
        obtain ⟨first, others⟩ := List.forall_mem_cons.mp hosts
        obtain ⟨printed, listed⟩ := exists_printedDirectives first
        obtain ⟨blocks, all⟩ := ih others
        exact ⟨(0, ⟨[], List.not_mem_nil, printed⟩) :: blocks, .cons listed all⟩
  obtain ⟨blocks, all⟩ := blocks
  refine ⟨⟨directives.map fun directive => (0, directive), blocks, 0⟩, ?_, all⟩
  rw [List.map_map]
  exact lists

end PrintedConfig

end RustHttpServer

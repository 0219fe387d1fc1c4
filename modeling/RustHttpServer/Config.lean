import RustHttpServer.Http.Message
import RustHttpServer.Parse

/-!
# Server configuration

The configuration of `config.rs`: directives of the server, and of its virtual
hosts, and the parser of the files it is written in.
-/

namespace RustHttpServer

open Foundation

/-- `enum Directive` -/
inductive Directive
  | cacheSize
  | documentRoot
  | listenPort
  | serverName
  | threadPoolSize
  deriving DecidableEq, Repr

/-- `struct VirtualHost` -/
structure VirtualHost where
  directives : HashMap Directive Text
  deriving DecidableEq

/-- `struct ServerConfig` -/
structure ServerConfig where
  directives : HashMap Directive Text
  virtualHosts : List VirtualHost
  deriving DecidableEq

/-- `impl FromStr for Directive` -/
def Directive.fromStr (s : Text) : Option Directive :=
  if s = "CacheSize".toList then some .cacheSize
  else if s = "DocumentRoot".toList then some .documentRoot
  else if s = "Listen".toList then some .listenPort
  else if s = "ServerName".toList then some .serverName
  else if s = "ThreadPoolSize".toList then some .threadPoolSize
  else none

/-- `parse_directive` -/
def parseDirective (s : Text) : Outcome Unit ((Directive × Text) × Text) := do
  let (line, rest) ← Outcome.okOr () (splitOnce s ['\n'])
  let (field, value) ← Outcome.okOr () (splitOnce (Text.trim line) [' '])
  let directive ← Outcome.okOr () (Directive.fromStr field)
  return ((directive, value), rest)

/-- `parse_open_block` -/
def parseOpenBlock (blockName s : Text) : Outcome Unit (Unit × Text) := do
  let (s, rest) ← Outcome.okOr () (splitOnce s ['\n'])
  let s ← discardChar '<' s
  let s ← discardString blockName s
  if s.getLast? = some '>' then return ((), rest) else .err ()

/-- `parse_close_block` -/
def parseCloseBlock (blockName s : Text) : Outcome Unit (Unit × Text) := do
  let (s, rest) ← Outcome.okOr () (splitOnce s ['\n'])
  let s ← discardChar '<' s
  let s ← discardChar '/' s
  let s ← discardString blockName s
  if s.getLast? = some '>' then return ((), rest) else .err ()

/-- What is left behind a line is shorter. -/
theorem length_lt_of_splitOnce {s line rest : Text}
    (cut : (Outcome.okOr () (splitOnce s ['\n']) : Outcome Unit _) = .ok (line, rest)) :
    rest.length < s.length := by
  have := splitOnce_length (Outcome.okOr_eq_ok_iff.mp cut)
  simp only [List.length_singleton] at this
  omega

private theorem parseDirective_shorter {s rest : Text} {directive : Directive × Text}
    (parsed : parseDirective s = .ok (directive, rest)) : rest.length < s.length := by
  obtain ⟨⟨line, behind⟩, cut, parsed⟩ := Outcome.bind_eq_ok_iff.mp parsed
  obtain ⟨⟨field, value⟩, _, parsed⟩ := Outcome.bind_eq_ok_iff.mp parsed
  obtain ⟨directive, _, same⟩ := Outcome.bind_eq_ok_iff.mp parsed
  cases same
  exact length_lt_of_splitOnce cut

private theorem parseOpenBlock_shorter {blockName s rest : Text}
    (parsed : parseOpenBlock blockName s = .ok ((), rest)) : rest.length < s.length := by
  obtain ⟨⟨line, behind⟩, cut, parsed⟩ := Outcome.bind_eq_ok_iff.mp parsed
  obtain ⟨tag, _, parsed⟩ := Outcome.bind_eq_ok_iff.mp parsed
  obtain ⟨label, _, parsed⟩ := Outcome.bind_eq_ok_iff.mp parsed
  split at parsed
  · cases parsed
    exact length_lt_of_splitOnce cut
  · cases parsed

private theorem parseCloseBlock_shorter {blockName s rest : Text}
    (parsed : parseCloseBlock blockName s = .ok ((), rest)) : rest.length < s.length := by
  obtain ⟨⟨line, behind⟩, cut, parsed⟩ := Outcome.bind_eq_ok_iff.mp parsed
  obtain ⟨tag, _, parsed⟩ := Outcome.bind_eq_ok_iff.mp parsed
  obtain ⟨slash, _, parsed⟩ := Outcome.bind_eq_ok_iff.mp parsed
  obtain ⟨label, _, parsed⟩ := Outcome.bind_eq_ok_iff.mp parsed
  split at parsed
  · cases parsed
    exact length_lt_of_splitOnce cut
  · cases parsed

/-- The loop of `parse_virtual_host`. -/
def parseDirectives (directives : HashMap Directive Text) (s : Text) :
    Outcome Unit (HashMap Directive Text × Text) :=
  match _parsed : parseDirective s with
  | .ok ((directiveField, directiveValue), rest) =>
      parseDirectives (directives.insert directiveField directiveValue) rest
  | .err _ => .ok (directives, s)
  | .abort => .abort
termination_by s.length
decreasing_by exact parseDirective_shorter _parsed

/-- `parse_virtual_host` -/
def parseVirtualHost (s : Text) : Outcome Unit (VirtualHost × Text) := do
  let blockName := "VirtualHost".toList
  let (_, s) ← parseOpenBlock blockName s
  let (directives, s) ← parseDirectives ∅ s
  let (_, s) ← parseCloseBlock blockName s
  return ({ directives }, s)

/-- A directive that is parsed is collected, and the next one is tried. -/
theorem parseDirectives_of_ok (directives : HashMap Directive Text) {s rest : Text}
    {field : Directive} {value : Text} (parsed : parseDirective s = .ok ((field, value), rest)) :
    parseDirectives directives s = parseDirectives (directives.insert field value) rest := by
  rw [parseDirectives]
  split
  · next found =>
      rw [parsed] at found
      cases found
      rfl
  · next failed =>
      rw [parsed] at failed
      cases failed
  · next aborted =>
      rw [parsed] at aborted
      cases aborted

/-- What is no directive ends the directives. -/
theorem parseDirectives_of_err (directives : HashMap Directive Text) {s : Text} {error : Unit}
    (failed : parseDirective s = .err error) :
    parseDirectives directives s = .ok (directives, s) := by
  rw [parseDirectives]
  split
  · next found =>
      rw [failed] at found
      cases found
  · rfl
  · next aborted =>
      rw [failed] at aborted
      cases aborted

private theorem parseDirectives_of_abort (directives : HashMap Directive Text) {s : Text}
    (aborted : parseDirective s = .abort) : parseDirectives directives s = .abort := by
  rw [parseDirectives]
  split
  · next found =>
      rw [aborted] at found
      cases found
  · next failed =>
      rw [aborted] at failed
      cases failed
  · rfl

/-- Parsing directives takes from the text. -/
private theorem length_le_of_parseDirectives {directives after : HashMap Directive Text}
    {s rest : Text}
    (parsed : parseDirectives directives s = .ok (after, rest)) : rest.length ≤ s.length := by
  induction directives, s using parseDirectives.induct with
  | case1 directives s field value behind found ih =>
      rw [parseDirectives_of_ok directives found] at parsed
      have := ih parsed
      have := parseDirective_shorter found
      omega
  | case2 directives s error failed =>
      rw [parseDirectives_of_err directives failed] at parsed
      cases parsed
      exact Nat.le_refl _
  | case3 directives s aborted =>
      rw [parseDirectives_of_abort directives aborted] at parsed
      cases parsed

private theorem parseVirtualHost_shorter {s rest : Text} {virtualHost : VirtualHost}
    (parsed : parseVirtualHost s = .ok (virtualHost, rest)) : rest.length < s.length := by
  obtain ⟨⟨_, inner⟩, opened, parsed⟩ := Outcome.bind_eq_ok_iff.mp parsed
  obtain ⟨⟨directives, outer⟩, block, parsed⟩ := Outcome.bind_eq_ok_iff.mp parsed
  obtain ⟨⟨_, behind⟩, closed, same⟩ := Outcome.bind_eq_ok_iff.mp parsed
  cases same
  have := parseOpenBlock_shorter opened
  have := length_le_of_parseDirectives block
  have := parseCloseBlock_shorter closed
  omega

/-- The loop of `parse_server_config`. -/
def parseItems (directives : HashMap Directive Text) (virtualHosts : List VirtualHost)
    (s : Text) : Outcome Error ServerConfig :=
  if s = [] then .ok { directives, virtualHosts }
  else
    match _blank : discardChar '\n' s with
    | .ok rest => parseItems directives virtualHosts rest
    | .abort => .abort
    | .err _ =>
        match _directive : parseDirective s with
        | .ok ((directiveField, directiveValue), rest) =>
            parseItems (directives.insert directiveField directiveValue) virtualHosts rest
        | .abort => .abort
        | .err _ =>
            match _block : parseVirtualHost s with
            | .ok (virtualHost, rest) =>
                parseItems directives (virtualHosts ++ [virtualHost]) rest
            | .abort => .abort
            | .err _ =>
                .err ⟨"Could not parse file content into Apache-style configuration file"⟩
termination_by s.length
decreasing_by
  · rw [discardChar_eq rfl, discardString_eq_ok_iff] at _blank
    rw [_blank, List.length_append, List.length_singleton]
    omega
  · exact parseDirective_shorter _directive
  · exact parseVirtualHost_shorter _block

/-- `parse_server_config` -/
def parseServerConfig (s : Text) : Outcome Error ServerConfig := parseItems ∅ [] s

end RustHttpServer

import Mathlib.Data.List.Basic
import RustHttpServer.Cgi
import RustHttpServer.Foundation.Transition

/-!
# The pipes of a child process

`Cgi::handle` writes the body of a request to the standard input of its child, closes it
and only then reads the standard output. Both are pipes that hold a limited number of
bytes, and writing to one whose reader has exited fails. The exchange comes to its end with
the whole output in every schedule exactly if the child keeps pace with the server
(`completes_iff`): it does not fill its output before the server has got rid of the body, and
does not exit before it has read it.
-/

namespace RustHttpServer

open Foundation

namespace Cgi

/-- What a child does next with its pipes. Reading at the end of the input reads nothing. -/
inductive Action
  | read
  | write (byte : UInt8)
  deriving DecidableEq, Repr

/-- What a child writes. -/
def output : List Action → Bytes
  | [] => []
  | .read :: actions => output actions
  | .write byte :: actions => byte :: output actions

/-- How often a child reads a byte. -/
def reads : List Action → Nat
  | [] => 0
  | .read :: actions => reads actions + 1
  | .write _ :: actions => reads actions

/-- How far the server has got: with the part of the body that it has not written yet, or
the part of the output that it has read. -/
inductive Progress
  | writing (rest : Bytes)
  | reading (received : Bytes)
  | done (stdout : Bytes)
  | failed
  deriving DecidableEq, Repr

/-- The server and a child with the two pipes between them. A child that is `none` has
exited. -/
structure Pipes where
  server : Progress
  stdin : Bytes
  child : Option (List Action)
  stdout : Bytes
  deriving DecidableEq, Repr

namespace Pipes

/-- The server has closed the standard input. -/
def closed (pipes : Pipes) : Bool :=
  match pipes.server with
  | .writing _ => false
  | _ => true

/-- A step of the server: `write_all`, the end of `stdin`, and `read_to_string`. -/
def serverStep (capacity : Nat) (pipes : Pipes) : Option Pipes :=
  match pipes.server with
  | .writing [] => some { pipes with server := .reading [] }
  | .writing (byte :: rest) =>
      if pipes.child.isNone then some { pipes with server := .failed }
      else if pipes.stdin.length < capacity then
        some { pipes with server := .writing rest, stdin := pipes.stdin ++ [byte] }
      else none
  | .reading received =>
      match pipes.stdout with
      | byte :: stdout => some { pipes with server := .reading (received ++ [byte]), stdout }
      | [] => if pipes.child.isNone then some { pipes with server := .done received } else none
  | .done _ => none
  | .failed => none

/-- A step of the child. -/
def childStep (capacity : Nat) (pipes : Pipes) : Option Pipes :=
  match pipes.child with
  | none => none
  | some [] => some { pipes with child := none }
  | some (.write byte :: actions) =>
      if pipes.stdout.length < capacity then
        some { pipes with stdout := pipes.stdout ++ [byte], child := some actions }
      else none
  | some (.read :: actions) =>
      match pipes.stdin with
      | _ :: stdin => some { pipes with stdin, child := some actions }
      | [] => if pipes.closed then some { pipes with child := some actions } else none

end Pipes

/-- Who takes a step. -/
inductive Party
  | server
  | child
  deriving DecidableEq, Repr

/-- A step of one of the two. -/
def Pipes.step? (capacity : Nat) (pipes : Pipes) : Party → Option Pipes
  | .server => pipes.serverStep capacity
  | .child => pipes.childStep capacity

/-- The exchange of a body with a child, in any schedule. -/
def exchange (capacity : Nat) (body : Bytes) (actions : List Action) :
    TransitionSystem Pipes Party :=
  .ofStep ⟨.writing body, [], some actions, []⟩ (Pipes.step? capacity)

namespace Pipes

/-- Neither the server nor the child can take a step. -/
def Stuck (capacity : Nat) (pipes : Pipes) : Prop := ∀ party, pipes.step? capacity party = none

/-- The server waits for the child to read from a full pipe. -/
def ServerBlocked (capacity : Nat) (pipes : Pipes) : Prop :=
  ∃ byte rest, pipes.server = .writing (byte :: rest) ∧ pipes.child ≠ none ∧
    capacity ≤ pipes.stdin.length

/-- The child waits for the server to read from a full pipe. -/
def ChildBlocked (capacity : Nat) (pipes : Pipes) : Prop :=
  ∃ byte actions, pipes.child = some (.write byte :: actions) ∧ capacity ≤ pipes.stdout.length

end Pipes

/-- In every schedule the exchange ends only when the server has received the whole
output, the two never wait for each other, and the server does not fail to deliver the
body. -/
structure Completes (capacity : Nat) (body : Bytes) (actions : List Action) : Prop where
  received : ∀ pipes, (exchange capacity body actions).Reachable pipes → pipes.Stuck capacity →
    pipes.server = .done (output actions)
  unblocked : ∀ pipes, (exchange capacity body actions).Reachable pipes →
    ¬ (pipes.ServerBlocked capacity ∧ pipes.ChildBlocked capacity)
  delivered : ∀ pipes, (exchange capacity body actions).Reachable pipes → pipes.server ≠ .failed

/-- A child keeps pace with a server that has more bytes for it than it has read: when it
writes a byte for which there is no room, no more is left to read than the pipe holds, and if
there is room for all it writes, it reads everything. -/
structure Paced (capacity unread room : Nat) (actions : List Action) : Prop where
  full : ∀ before byte after, actions = before ++ .write byte :: after →
    (output before).length = room → unread ≤ reads before + capacity
  exits : (output actions).length ≤ room → unread ≤ reads actions

/-! ### Keeping pace -/

private theorem paced_nil {capacity unread room : Nat} :
    Paced capacity unread room [] ↔ unread = 0 := by
  constructor
  · intro paced
    exact Nat.le_zero.mp (paced.exits (Nat.zero_le room))
  · rintro rfl
    refine ⟨?_, fun _ => Nat.zero_le _⟩
    intro before byte after whole
    exact absurd whole.symm (by simp)

/-- A read takes a byte that is unread, if there is one. -/
private theorem paced_read {capacity unread room : Nat} {actions : List Action} :
    Paced capacity unread room (.read :: actions) ↔ Paced capacity (unread - 1) room actions := by
  constructor
  · intro paced
    refine ⟨?_, fun fits => ?_⟩
    · intro before byte after whole full
      have kept := paced.full (.read :: before) byte after (congrArg _ whole) full
      rw [reads] at kept
      omega
    · have kept := paced.exits fits
      rw [reads] at kept
      omega
  · intro paced
    refine ⟨?_, fun fits => ?_⟩
    · intro before byte after whole full
      cases before with
      | nil => cases whole
      | cons action before =>
          rw [List.cons_append, List.cons.injEq] at whole
          obtain ⟨rfl, rest⟩ := whole
          have kept := paced.full before byte after rest full
          rw [reads]
          omega
    · have kept := paced.exits fits
      rw [reads]
      omega

private theorem paced_write_zero {capacity unread : Nat} {byte : UInt8} {actions : List Action} :
    Paced capacity unread 0 (.write byte :: actions) ↔ unread ≤ capacity := by
  constructor
  · intro paced
    have kept := paced.full [] byte actions rfl rfl
    rwa [reads, Nat.zero_add] at kept
  · intro small
    refine ⟨?_, fun fits => ?_⟩
    · intro before other after _ _
      exact small.trans (Nat.le_add_left _ _)
    · rw [output, List.length_cons] at fits
      exact absurd fits (Nat.not_succ_le_zero _)

/-- A write that has room takes some of it. -/
private theorem paced_write_succ {capacity unread room : Nat} {byte : UInt8}
    {actions : List Action} :
    Paced capacity unread (room + 1) (.write byte :: actions) ↔
      Paced capacity unread room actions := by
  constructor
  · intro paced
    refine ⟨?_, fun fits => ?_⟩
    · intro before other after whole full
      have written : (output (.write byte :: before)).length = room + 1 := by
        rw [output, List.length_cons, full]
      exact paced.full (.write byte :: before) other after (congrArg _ whole) written
    · exact paced.exits (Nat.succ_le_succ fits)
  · intro paced
    refine ⟨?_, fun fits => paced.exits (Nat.le_of_succ_le_succ fits)⟩
    intro before other after whole full
    cases before with
    | nil => cases full
    | cons action before =>
        rw [List.cons_append, List.cons.injEq] at whole
        obtain ⟨rfl, rest⟩ := whole
        exact paced.full before other after rest (Nat.succ.inj full)

/-! ### Children that keep pace -/

/-- What is known of a run with a child that keeps pace. While the server writes, all of
the output is in the pipe. -/
inductive OnPace (capacity : Nat) (total : Bytes) : Pipes → Prop
  | writing {rest stdin stdout : Bytes} {actions : List Action} {room : Nat} :
      stdout.length + room = capacity →
      Paced capacity (stdin ++ rest).length room actions → stdout ++ output actions = total →
        OnPace capacity total ⟨.writing rest, stdin, some actions, stdout⟩
  | written : OnPace capacity total ⟨.writing [], [], none, total⟩
  | reading {received stdin stdout : Bytes} {actions : List Action} :
      received ++ (stdout ++ output actions) = total →
        OnPace capacity total ⟨.reading received, stdin, some actions, stdout⟩
  | exited {received stdin stdout : Bytes} : received ++ stdout = total →
      OnPace capacity total ⟨.reading received, stdin, none, stdout⟩
  | done {stdin : Bytes} : OnPace capacity total ⟨.done total, stdin, none, []⟩

/-- The server leaves the script on pace. -/
private theorem OnPace.serverStep {capacity : Nat} {total : Bytes} {pipes next : Pipes}
    (onPace : OnPace capacity total pipes) (stepped : pipes.serverStep capacity = some next) :
    OnPace capacity total next := by
  cases onPace with
  | @writing rest stdin stdout actions room space paced whole =>
      cases rest with
      | nil =>
          cases stepped
          exact .reading whole
      | cons byte rest =>
          simp only [Pipes.serverStep, Option.isNone_some, Bool.false_eq_true, if_false] at stepped
          split at stepped
          · cases stepped
            refine .writing space ?_ whole
            rwa [List.append_assoc, List.singleton_append]
          · cases stepped
  | written =>
      cases stepped
      exact .exited rfl
  | @reading received stdin stdout actions whole =>
      cases stdout with
      | nil => cases stepped
      | cons byte stdout =>
          cases stepped
          refine .reading ?_
          rw [← whole, List.append_assoc]
          rfl
  | @exited received stdin stdout whole =>
      cases stdout with
      | nil =>
          cases stepped
          rw [List.append_nil] at whole
          rw [whole]
          exact .done
      | cons byte stdout =>
          cases stepped
          refine .exited ?_
          rw [← whole, List.append_assoc]
          rfl
  | done => cases stepped

/-- The script goes on on pace. -/
private theorem OnPace.childStep {capacity : Nat} {total : Bytes} {pipes next : Pipes}
    (onPace : OnPace capacity total pipes) (stepped : pipes.childStep capacity = some next) :
    OnPace capacity total next := by
  cases onPace with
  | @writing rest stdin stdout actions room space paced whole =>
      cases actions with
      | nil =>
          cases stepped
          have empty := List.append_eq_nil_iff.mp
            (List.eq_nil_of_length_eq_zero (paced_nil.mp paced))
          obtain ⟨rfl, rfl⟩ := empty
          rw [output, List.append_nil] at whole
          rw [whole]
          exact .written
      | cons action actions =>
          cases action with
          | read =>
              cases stdin with
              | nil => cases stepped
              | cons byte stdin =>
                  cases stepped
                  exact .writing space (paced_read.mp paced) whole
          | write byte =>
              simp only [Pipes.childStep] at stepped
              split at stepped
              · next fits =>
                cases stepped
                obtain ⟨left, rfl⟩ : ∃ left, room = left + 1 := ⟨room - 1, by omega⟩
                refine .writing ?_ (paced_write_succ.mp paced) ?_
                · rw [List.length_append, List.length_singleton]
                  omega
                · rwa [List.append_assoc]
              · cases stepped
  | written => cases stepped
  | @reading received stdin stdout actions whole =>
      cases actions with
      | nil =>
          cases stepped
          rw [output, List.append_nil] at whole
          exact .exited whole
      | cons action actions =>
          cases action with
          | read =>
              cases stdin with
              | nil =>
                  cases stepped
                  exact .reading whole
              | cons byte stdin =>
                  cases stepped
                  exact .reading whole
          | write byte =>
              simp only [Pipes.childStep] at stepped
              split at stepped
              · cases stepped
                refine .reading ?_
                rwa [List.append_assoc stdout]
              · cases stepped
  | exited whole => cases stepped
  | done => cases stepped

private theorem onPace_of_reachable {capacity : Nat} {body : Bytes} {actions : List Action}
    {pipes : Pipes} (paced : Paced capacity body.length capacity actions)
    (reachable : (exchange capacity body actions).Reachable pipes) :
    OnPace capacity (output actions) pipes := by
  refine reachable.invariant (OnPace capacity (output actions)) ?_ ?_
  · rintro _ rfl
    exact .writing (Nat.zero_add capacity) paced rfl
  · intro state party next onPace stepped
    cases party with
    | server => exact onPace.serverStep stepped
    | child => exact onPace.childStep stepped

/-- Where the script keeps pace, one of the two can go on. -/
private theorem OnPace.unblocked {capacity : Nat} {total : Bytes} {pipes : Pipes}
    (onPace : OnPace capacity total pipes) :
    ¬ (pipes.ServerBlocked capacity ∧ pipes.ChildBlocked capacity) := by
  rintro ⟨⟨byte, rest, writing, _, stdinFull⟩, other, actions, child, stdoutFull⟩
  cases onPace with
  | @writing _ stdin stdout _ room space paced whole =>
      cases writing
      cases child
      obtain rfl : room = 0 := by
        change capacity ≤ stdout.length at stdoutFull
        omega
      have small := paced_write_zero.mp paced
      rw [List.length_append, List.length_cons] at small
      change capacity ≤ stdin.length at stdinFull
      omega
  | written => cases child
  | reading whole => cases writing
  | exited whole => cases writing
  | done => cases writing

/-- On pace, somebody can take a step until the server has everything. -/
theorem OnPace.received {capacity : Nat} (positive : 0 < capacity) {total : Bytes} {pipes : Pipes}
    (onPace : OnPace capacity total pipes) (stuck : pipes.Stuck capacity) :
    pipes.server = .done total := by
  have unblocked := onPace.unblocked
  have server := stuck .server
  have child := stuck .child
  simp only [Pipes.step?] at server child
  cases onPace with
  | @writing rest stdin stdout actions room space paced whole =>
      cases rest with
      | nil => cases server
      | cons byte rest =>
          simp only [Pipes.serverStep, Option.isNone_some, Bool.false_eq_true, if_false] at server
          split at server
          · cases server
          · next stdinFull =>
            cases actions with
            | nil => cases child
            | cons action actions =>
                cases action with
                | read =>
                    cases stdin with
                    | nil => exact absurd positive stdinFull
                    | cons first stdin => cases child
                | write other =>
                    simp only [Pipes.childStep] at child
                    split at child
                    · cases child
                    · next stdoutFull =>
                      refine absurd ⟨⟨byte, rest, rfl, ?_, ?_⟩, other, actions, rfl, ?_⟩ unblocked
                      · exact Option.some_ne_none _
                      · exact Nat.le_of_not_lt stdinFull
                      · exact Nat.le_of_not_lt stdoutFull
  | written => cases server
  | @reading received stdin stdout actions whole =>
      cases stdout with
      | cons byte stdout => cases server
      | nil =>
          cases actions with
          | nil => cases child
          | cons action actions =>
              cases action with
              | read =>
                  cases stdin with
                  | nil => cases child
                  | cons first stdin => cases child
              | write byte =>
                  simp only [Pipes.childStep, List.length_nil, if_pos positive] at child
                  cases child
  | @exited received stdin stdout whole =>
      cases stdout with
      | nil => cases server
      | cons byte stdout => cases server
  | done => rfl

/-- While the script keeps pace, writing to it does not fail. -/
theorem OnPace.delivered {capacity : Nat} {total : Bytes} {pipes : Pipes}
    (onPace : OnPace capacity total pipes) : pipes.server ≠ .failed := by
  cases onPace <;> exact nofun

/-! ### Children that do not keep pace -/

section Lagging

variable {capacity : Nat} {body : Bytes} {program : List Action}

private theorem reachable_step {pipes next : Pipes} {party : Party}
    (reachable : (exchange capacity body program).Reachable pipes)
    (stepped : pipes.step? capacity party = some next) :
    (exchange capacity body program).Reachable next := reachable.step stepped

private theorem serverStep_write {byte : UInt8} {rest stdin stdout : Bytes} {actions : List Action}
    (fits : stdin.length < capacity) :
    Pipes.step? capacity ⟨.writing (byte :: rest), stdin, some actions, stdout⟩ .server =
      some ⟨.writing rest, stdin ++ [byte], some actions, stdout⟩ := by
  simp only [Pipes.step?, Pipes.serverStep, Option.isNone_some, Bool.false_eq_true, if_false,
    if_pos fits]

/-- The server can write as much as the pipe holds. -/
theorem reachable_filled {actions : List Action} {stdout : Bytes} (more rest stdin : Bytes)
    (space : stdin.length + more.length ≤ capacity)
    (reachable : (exchange capacity body program).Reachable
      ⟨.writing (more ++ rest), stdin, some actions, stdout⟩) :
    (exchange capacity body program).Reachable
      ⟨.writing rest, stdin ++ more, some actions, stdout⟩ := by
  induction more generalizing stdin with
  | nil => rwa [List.append_nil]
  | cons byte more ih =>
      rw [List.length_cons] at space
      have next := reachable_step reachable (serverStep_write (by omega))
      rw [List.append_cons]
      refine ih _ ?_ next
      rw [List.length_append, List.length_singleton]
      omega

/-- If a child falls behind while the server writes, the exchange ends without its
output. -/
theorem exists_stuck (positive : 0 < capacity) {actions : List Action} {unread stdout : Bytes}
    {room : Nat} (space : stdout.length + room = capacity)
    (lags : ¬ Paced capacity unread.length room actions)
    (reachable : (exchange capacity body program).Reachable
      ⟨.writing unread, [], some actions, stdout⟩) :
    ∃ pipes, (exchange capacity body program).Reachable pipes ∧ pipes.Stuck capacity ∧
      ∀ stdout, pipes.server ≠ .done stdout := by
  induction actions generalizing unread stdout room with
  | nil =>
      cases unread with
      | nil => exact absurd (paced_nil.mpr rfl) lags
      | cons byte rest =>
          have exited := @reachable_step capacity body program _ ⟨.writing (byte :: rest), [], none,
            stdout⟩ .child reachable rfl
          have failed := @reachable_step capacity body program _ ⟨.failed, [], none, stdout⟩ .server
            exited rfl
          refine ⟨_, failed, ?_, nofun⟩
          rintro (_ | _)
          · rfl
          · rfl
  | cons action actions ih =>
      cases action with
      | read =>
          cases unread with
          | nil => exact absurd ⟨fun _ _ _ _ _ => Nat.zero_le _, fun _ => Nat.zero_le _⟩ lags
          | cons byte rest =>
              have written := reachable_step reachable (serverStep_write positive)
              have read := @reachable_step capacity body program _ ⟨.writing rest, [], some actions,
                stdout⟩ .child written rfl
              exact ih space (fun paced => lags (paced_read.mpr paced)) read
      | write byte =>
          cases room with
          | zero =>
              have more := mt paced_write_zero.mpr lags
              have taken : (unread.take capacity).length = capacity :=
                List.length_take_of_le (Nat.le_of_not_le more)
              rw [← List.take_append_drop capacity unread] at reachable
              have filled :=
                reachable_filled _ _ [] (by rw [List.length_nil, taken]; omega) reachable
              refine ⟨_, filled, ?_, nofun⟩
              rw [List.nil_append]
              obtain ⟨next, rest, left⟩ : ∃ next rest, unread.drop capacity = next :: rest :=
                List.exists_cons_of_ne_nil fun none => more (List.drop_eq_nil_iff.mp none)
              rw [left]
              rintro (_ | _)
              · simp only [Pipes.step?, Pipes.serverStep, Option.isNone_some, Bool.false_eq_true,
                  if_false, taken, Nat.lt_irrefl]
              · have stdoutFull : ¬ stdout.length < capacity := by omega
                exact if_neg stdoutFull
          | succ room =>
              have fits : stdout.length < capacity := by omega
              have written := @reachable_step capacity body program _ ⟨.writing unread, [],
                some actions, stdout ++ [byte]⟩ .child reachable (if_pos fits)
              refine ih ?_ (fun paced => lags (paced_write_succ.mpr paced)) written
              rw [List.length_append, List.length_singleton]
              omega

/-- A child that falls behind spoils the exchange. -/
theorem not_completes (positive : 0 < capacity)
    (lags : ¬ Paced capacity body.length capacity program) :
    ¬ Completes capacity body program := by
  intro completes
  obtain ⟨pipes, reachable, stuck, unfinished⟩ :=
    exists_stuck positive (Nat.zero_add capacity) lags (.start rfl)
  exact unfinished _ (completes.received pipes reachable stuck)

end Lagging

/-- **An exchange completes exactly with a child that keeps pace.** With pipes of any
capacity, every schedule ends with the server having received all that the child writes,
without the two waiting for each other and without an error, if and only if the child keeps
pace. -/
theorem completes_iff {capacity : Nat} (positive : 0 < capacity) (body : Bytes)
    (actions : List Action) :
    Completes capacity body actions ↔ Paced capacity body.length capacity actions := by
  constructor
  · intro completes
    by_contra lags
    exact not_completes positive lags completes
  · intro paced
    refine ⟨?_, ?_, ?_⟩
    · exact fun pipes reachable stuck =>
        (onPace_of_reachable paced reachable).received positive stuck
    · exact fun pipes reachable => (onPace_of_reachable paced reachable).unblocked
    · exact fun pipes reachable => (onPace_of_reachable paced reachable).delivered

/-! ### Children -/

/-- A child that reads the whole body before it does anything else keeps pace. -/
theorem paced_of_reads_first (capacity room : Nat) (body : Bytes) (actions : List Action) :
    Paced capacity body.length room (List.replicate body.length .read ++ actions) := by
  induction body with
  | nil => exact ⟨fun _ _ _ _ _ => Nat.zero_le _, fun _ => Nat.zero_le _⟩
  | cons byte body ih =>
      rw [List.length_cons, List.replicate_succ, List.cons_append, paced_read,
        Nat.add_sub_cancel]
      exact ih

/-- The rule holds of a child that reads to the end of a body and then writes it in upper
case. -/
theorem completes_iff_uppercase : Completes 65536 [104, 105]
    (List.replicate 2 .read ++ [.read, .write 72, .write 73]) :=
  (completes_iff (by decide) [104, 105] _).mpr
    (paced_of_reads_first 65536 65536 [104, 105] [.read, .write 72, .write 73])

/-- What a child prints that does not read its input. -/
def page : List Action :=
  (Utf8.encode "Content-Type: text/plain\n\nok".toList).map .write

/-- **A body that is not read spoils the output.** The child prints its page and exits.
Only then the server gets to write the body, and fails. -/
theorem not_completes_page : ∃ pipes, (exchange 65536 [97] page).Reachable pipes ∧
    pipes.child = none ∧ pipes.stdout = output page ∧ pipes.server = .failed ∧
    ¬ Completes 65536 [97] page := by
  have start : (exchange 65536 [97] page).Reachable ⟨.writing [97], [], some page, []⟩ :=
    .start rfl
  have ran : (List.replicate 29 Party.child ++ [Party.server]).foldlM (Pipes.step? 65536)
      ⟨.writing [97], [], some page, []⟩ = some ⟨.failed, [], none, output page⟩ := by
    decide +kernel
  have failed := start.foldlM _ ran
  exact ⟨_, failed, rfl, rfl, rfl, fun completes => completes.delivered _ failed rfl⟩

/-- A child that copies its input. -/
def copy (body : Bytes) : List Action := body.flatMap fun byte => [.read, .write byte]

/-- A script that copies a long body falls behind. -/
private theorem copy_lags (capacity room : Nat) (body : Bytes)
    (long : capacity + room + 1 < body.length) :
    ¬ Paced capacity body.length room (copy body) := by
  induction body generalizing room with
  | nil => exact absurd long (Nat.not_lt_zero _)
  | cons byte body ih =>
      rw [List.length_cons] at long
      have copied : copy (byte :: body) = .read :: .write byte :: copy body := rfl
      rw [copied, paced_read, List.length_cons, Nat.add_sub_cancel]
      cases room with
      | zero =>
          rw [paced_write_zero]
          omega
      | succ room =>
          rw [paced_write_succ]
          exact ih room (by omega)

/-- A body that fills both pipes is not copied. -/
theorem not_completes_copy {capacity : Nat} (positive : 0 < capacity) (body : Bytes)
    (long : 2 * capacity + 1 < body.length) : ¬ Completes capacity body (copy body) :=
  not_completes positive (copy_lags capacity capacity body (by omega))

/-! ### Back in `Cgi::handle` -/

/-- The error of a pipe whose reader has exited. -/
def brokenPipe : IoError := ⟨.other, "Broken pipe (os error 32)"⟩

/-- The end of the exchange, as the server finds it. -/
def Progress.run? : Progress → Option CgiRun
  | .writing _ => none
  | .reading _ => none
  | .done stdout => some (.finished stdout)
  | .failed => some (.writeFailed brokenPipe)

/-- A child that keeps pace is answered with all that it writes, in every schedule. -/
theorem run_of_paced {capacity : Nat} (positive : 0 < capacity) {body : Bytes}
    {actions : List Action} (paced : Paced capacity body.length capacity actions) {pipes : Pipes}
    (reachable : (exchange capacity body actions).Reachable pipes)
    (stuck : pipes.Stuck capacity) :
    pipes.server.run? = some (.finished (output actions)) := by
  rw [(onPace_of_reachable paced reachable).received positive stuck, Progress.run?]

end Cgi

end RustHttpServer

import RustHttpServer.Host.Answer
import RustHttpServer.Host.Site

/-!
# The framing of the handler's responses

The length of a response counts two bytes more than its body, but the line break that
they stand for is only written behind a body that is not empty; and a script may
announce the chunked coding for a body that is not written in it. These are the only
ways in which a response is not framed (`handle_framed_iff`).
-/

namespace RustHttpServer

open Foundation Utf8

/-- The source has a body, if it has a length, and does not announce the chunked coding
for a body that is not written in chunks. -/
def Source.Delimited : Source → Prop
  | .nothing => True
  | .file content => content ≠ []
  | .script headers body =>
      1024 < byteLength body + 2 ∨ headers.lookup .transferEncoding = none ∧ body ≠ []

/-- A length that counts the line break is right when there is a body. -/
theorem plainLength_eq_iff (body : Text) : byteLength body + 2 = plainLength body ↔ body ≠ [] := by
  unfold plainLength
  split
  · next empty => simp [empty]
  · next nonempty => simp [nonempty]

/-- A source is delimited if its content is long, or is written plainly with its own length. -/
private theorem Source.delimited_iff (source : Source) : source.Delimited ↔
    1024 < source.length ∨ source.encoding = none ∧ source.length = plainLength source.body := by
  cases source with
  | nothing => exact iff_of_true trivial (.inr ⟨rfl, rfl⟩)
  | file content =>
      change content ≠ [] ↔ 1024 < byteLength content + 2 ∨
        none = none ∧ byteLength content + 2 = plainLength content
      rw [plainLength_eq_iff]
      constructor
      · exact fun nonempty => .inr ⟨rfl, nonempty⟩
      · rintro (long | ⟨-, nonempty⟩)
        · rintro rfl
          rw [byteLength_nil] at long
          omega
        · exact nonempty
  | script headers body =>
      change _ ↔ 1024 < byteLength body + 2 ∨
        headers.lookup .transferEncoding = none ∧ byteLength body + 2 = plainLength body
      rw [plainLength_eq_iff]
      rfl

/-- A response from a source is framed when the source is delimited. -/
theorem Source.Answers.framed_iff {source : Source} {response : Response}
    (answers : source.Answers response) (order : HeaderOrder) {bytes : Bytes}
    (written : writeResponse order response = .ok bytes) : Framed bytes ↔ source.Delimited := by
  rw [framed_writeResponse_iff order answers.oneLine answers.length written, answers.encoding,
    answers.body, source.delimited_iff]

variable {chrono : Chrono}

/-- **Framing.** The bytes of a response of `Host::handle` say where they end exactly
when its source is delimited. -/
theorem handle_framed_iff (printsUtc : chrono.PrintsUtc) (host : Host) (world : World chrono)
    (request : Request) (overloaded : Bool) {response : Response} {after : Host}
    {accesses : List Access}
    (handled : host.handle world request overloaded = (.ok response, after, accesses))
    (order : HeaderOrder) : ∃ bytes, writeResponse order response = .ok bytes ∧
      (Framed bytes ↔ (host.source world request).Delimited) := by
  obtain ⟨bytes, written⟩ := exists_writeResponse order response
  refine ⟨bytes, written, ?_⟩
  exact (handle_answers printsUtc host world request overloaded handled).framed_iff order written

/-- The rule holds of a page of the site. -/
theorem handle_framed_iff_page : ∃ response after accesses,
    Site.host.handle Site.world (Site.get "/page.txt") false = (.ok response, after, accesses) ∧
      ∃ bytes, writeResponse Site.headerOrder response = .ok bytes ∧
        (Framed bytes ↔ (Site.host.source Site.world (Site.get "/page.txt")).Delimited) := by
  have returned : (Site.host.handle Site.world (Site.get "/page.txt") false).1.isOk := by
    decide +kernel
  obtain ⟨response, handled⟩ := Outcome.exists_of_isOk returned
  refine ⟨response, _, _, Prod.ext handled rfl, ?_⟩
  exact handle_framed_iff gregorian_printsUtc _ _ _ _ (Prod.ext handled rfl) Site.headerOrder

/-- An empty file is sent with a `Content-Length` of two and nothing behind the head. -/
theorem handle_empty_not_framed : ∃ response after accesses bytes,
    Site.host.handle Site.world (Site.get "/empty") false = (.ok response, after, accesses) ∧
      writeResponse Site.headerOrder response = .ok bytes ∧ ¬Framed bytes := by
  have returned : (Site.host.handle Site.world (Site.get "/empty") false).1.isOk := by
    decide +kernel
  have empty : Site.host.source Site.world (Site.get "/empty") = .file [] := by decide +kernel
  obtain ⟨response, handled⟩ := Outcome.exists_of_isOk returned
  obtain ⟨bytes, written⟩ := exists_writeResponse Site.headerOrder response
  refine ⟨response, _, _, bytes, Prod.ext handled rfl, written, ?_⟩
  have answers := handle_answers gregorian_printsUtc _ _ _ _ (Prod.ext handled rfl)
  rw [answers.framed_iff Site.headerOrder written, empty]
  exact fun nonempty => nonempty rfl

end RustHttpServer

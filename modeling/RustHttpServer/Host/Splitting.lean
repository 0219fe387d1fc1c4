import RustHttpServer.Host.Site
import RustHttpServer.Host.Work

/-!
# Responses are not split

Whatever a script prints, its headers have no line breaks in them and no whitespace
around them, and the same goes for the headers that the server sets itself. The head of
a response is therefore read back as the status and the header lines it was written
from, and ends where the server ended it (`handle_head_decoded`).
-/

namespace RustHttpServer

open Foundation Utf8 Stateful

private theorem trimmedValues_of_processCgiOutput {s : Text} {headers : ResponseHeaderLines}
    {body : Text} (parsed : processCgiOutput s = .ok (headers, body)) : TrimmedValues headers := by
  intro field value found
  obtain ⟨line, -, header⟩ := exists_line_of_processCgiOutput parsed found
  simp only [cgiHeader, Option.bind_eq_bind, Option.bind_eq_some_iff, Option.pure_def,
    Option.some.injEq, Prod.mk.injEq] at header
  obtain ⟨⟨name, text⟩, _, _, _, _, rfl⟩ := header
  exact Text.trim_trim text

private theorem trim_contentType {path : Path} {contentType : Text}
    (known : Files.contentType path = some contentType) :
    Text.trim contentType = contentType := by
  have trimmed : ∀ text ∈ ["text/plain".toList, "text/html".toList, "image/jpeg".toList],
      Text.trim text = text := by decide
  exact trimmed contentType (mem_contentTypes known)

private theorem trimmedValues_headerLines (path : Path) (file : File) {modifiedStr : Text}
    (visible : Text.trim modifiedStr = modifiedStr) :
    TrimmedValues (Files.headerLines path file modifiedStr) := by
  have dated := (TrimmedValues.empty.insert .contentLength
    (Text.trim_decimal (byteLength file.content + 2))).insert .lastModified visible
  unfold Files.headerLines
  cases known : Files.contentType path with
  | none => exact dated
  | some contentType => exact dated.insert .contentType (trim_contentType known)

variable {chrono : Chrono}

private theorem trimmedValues_of_produced (prints : chrono.PrintsRfc2822) {response : Response}
    (produced : Produced chrono response) : TrimmedValues response.header.headerLines := by
  cases produced with
  | bare statusCode => exact TrimmedValues.empty.insert .contentLength (by decide)
  | script parsed =>
      exact (trimmedValues_of_processCgiOutput parsed).insert .contentLength (Text.trim_decimal _)
  | file path file dated =>
      simp only [Files.lastModified, Outcome.bind_eq_ok_iff] at dated
      obtain ⟨_, _, _, _, datetime, _, printed⟩ := dated
      exact trimmedValues_headerLines path file (trim_to1123 prints printed)

/-- No header that the handler responds with begins or ends with whitespace. -/
theorem handle_trimmed (prints : chrono.PrintsRfc2822) {host : Host} {world : World chrono}
    {request : Request} {overloaded : Bool} {response : Response} {after : Host}
    {accesses : List Access}
    (handled : host.handle world request overloaded = (.ok response, after, accesses)) :
    TrimmedValues response.header.headerLines := by
  obtain ⟨answer, now, produced, printed, rfl⟩ := handle_produced handled
  have trimmed := trimmedValues_of_produced prints produced
  exact (trimmed.insert .server (by decide)).insert .date (trim_to1123 prints printed)

/-- **Responses are not split.** What is written of a response of `Host::handle` is its
head, a blank line and its body. The lines before the first blank line are the status and
one line for each header, they are read back as the headers, and behind them stands
the body and nothing else. -/
theorem handle_head_decoded (prints : chrono.PrintsRfc2822) (host : Host) (world : World chrono)
    (request : Request) (overloaded : Bool) {response : Response} {after : Host}
    {accesses : List Access}
    (handled : host.handle world request overloaded = (.ok response, after, accesses))
    (order : HeaderOrder) : ∃ bytes, writeResponse order response = .ok bytes ∧
      bytes = encode (response.written.toText order) ++ (lineBreak ++ response.coded) ∧
      readHead bytes =
        some (response.written.statusLine.bytes :: response.written.lines order, response.coded) ∧
      (response.written.lines order).length = response.written.headerLines.keys.card ∧
      readHeaderLines (response.written.lines order) = some response.written.headerLines := by
  have answers := handle_answers prints.printsUtc host world request overloaded handled
  have trimmed := trimmedValues_written (handle_trimmed prints handled)
  refine ⟨_, writeResponse_eq order response, rfl, ?_, ?_, readHeaderLines_lines order trimmed⟩
  · exact readHead_header order answers.oneLine.written response.coded
  · rw [ResponseHeader.lines, List.length_map, order.length_entries]

/-- The site with a script that prints headers of its own, one with a carriage return in it, and
a body that looks like the rest of a head. -/
def Site.forgingWorld : World gregorian :=
  { world with
    cgi := fun _ => .finished (encode ("Content-Type: text/\rplain \r\n".toList ++
      "Transfer-Encoding: chunked\n\nServer: forged\r\n\r\n".toList)) }

/-- A POST to the script. -/
def Site.post : Request :=
  { get "/page.txt" with
    header := { (get "/page.txt").header with
      requestLine := { (get "/page.txt").header.requestLine with method := .post } } }

/-- The rule holds of what the script prints. -/
theorem handle_head_decoded_page : ∃ response after accesses,
    Site.host.handle Site.forgingWorld Site.post false = (.ok response, after, accesses) ∧
      response.written.headerLines.lookup .contentType = some "text/\rplain".toList ∧
      response.body = "Server: forged\r\n\r\n".toList ∧
      ∃ bytes, writeResponse Site.headerOrder response = .ok bytes ∧
        bytes = encode (response.written.toText Site.headerOrder) ++
          (lineBreak ++ response.coded) ∧
        readHead bytes = some (response.written.statusLine.bytes ::
          response.written.lines Site.headerOrder, response.coded) ∧
        (response.written.lines Site.headerOrder).length =
          response.written.headerLines.keys.card ∧
        readHeaderLines (response.written.lines Site.headerOrder) =
          some response.written.headerLines := by
  have returned : (Site.host.handle Site.forgingWorld Site.post false).1.toOption.map
      (fun response => (response.written.headerLines.lookup .contentType, response.body)) =
        some (some "text/\rplain".toList, "Server: forged\r\n\r\n".toList) := by decide +kernel
  obtain ⟨response, handled, seen⟩ := Option.map_eq_some_iff.mp returned
  obtain ⟨typed, body⟩ := Prod.mk.inj seen
  have handled := Outcome.toOption_eq_some_iff.mp handled
  refine ⟨response, _, _, Prod.ext handled rfl, typed, body, ?_⟩
  exact handle_head_decoded gregorian_printsRfc2822 _ _ _ _ (Prod.ext handled rfl)
    Site.headerOrder

end RustHttpServer

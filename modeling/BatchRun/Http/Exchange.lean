import BatchRun.Http.MediaType
import BatchRun.Http.Url
import BatchRun.Item.Failure
import BatchRun.Json.Parser
import BatchRun.Json.Printer
import BatchRun.Text.Blank
import BatchRun.Text.Charset

/-!
# Payloads over HTTP

**Input.**
An endpoint, a payload, and the time that is left for the attempt.

**Request.**
A payload that is a text is a field of a form; any other one is sent as a document.

**Results.**
`Endpoint.attempt` gives the result, or the failure of the attempt.  An answer that is no document
is a text.  A destination may ask for a pause; its own faults pass, and those it finds in the
request stay.
-/

namespace BatchRun
namespace Http

open Json
open Number
open Text
open Time

/-- Where payloads are sent. -/
structure Endpoint where
  address : String
  /-- Name of the field of a form that carries a payload that is a text. -/
  queryParam : String := "query"
deriving DecidableEq

/-- A request. -/
structure Request where
  method : String := "POST"
  url : Url
  /-- Kinds of answers that are asked for. -/
  accept : String := "application/sparql-results+json, application/json;q=0.9, */*;q=0.1"
  contentType : String
  /-- Name of the program. -/
  userAgent : String := "fanout/0.1.0"
  body : String

/-- An answer to a request. -/
structure Response where
  status : Nat
  headers : List (String × String) := []
  /-- Bytes of the body, if it came to its end. -/
  body : Option Bytes

/-- What became of a request. -/
inductive Delivery where
  | answered (response : Response)
  /-- No answer came in time. -/
  | late
  /-- There is no way to the destination. -/
  | unreachable

namespace Response

/-- Value of a header; case does not count in its name. -/
def header? (response : Response) (name : String) : Option String :=
  let lower (text : String) : List Char := text.toList.map Char.toLower
  (response.headers.find? fun header => lower header.1 == lower name).map Prod.snd

/-- Pause that is meant when none is named, in seconds. -/
def usualPause : Nat := 1

/-- Seconds of a pause, with or without a plus. -/
def seconds? (text : String) : Option Nat :=
  let digits := match trim text.toList with
    | '+' :: digits => digits
    | digits => digits
  if text.toList.all (fun c => c.toNat < 127) then (numberIn? 10 digits).filter (· < Nat.pow 2 64)
  else none

/-- Label of the character set that the answer names. -/
def charsetLabel? (response : Response) : Option String := do
  let parameters ← mediaParameters? (trim (← response.header? "content-type").toList)
  let parameter ← parameters.find? fun parameter =>
    parameter.name.map Char.toLower == "charset".toList
  pure (String.ofList (trim parameter.value))

/-- Character set of the answer: the one that it names, if that is known. -/
def charset (response : Response) : Charset :=
  (response.charsetLabel?.bind Charset.named?).getD .utf8

/-- Greatest number of characters of an answer in a message. -/
def maxShown : Nat := 512

/-- Result of an answer. -/
def result (response : Response) : Except AttemptFailure Json :=
  let text? := response.body.map (decode response.charset)
  if response.status = 429 then
    let pause := ((response.header? "retry-after").bind seconds?).getD usualPause
    .error (.rateLimited (pause * nanosPerSecond))
  else if 200 ≤ response.status ∧ response.status < 300 then
    match text? with
    | none => .error (.transient "network error: error decoding response body")
    | some text =>
      match parse? (bytesOf text) with
      | .ok value => .ok value
      | .error _ => .ok (.string text)
  else
    let shown := String.ofList ((text?.getD "").toList.take maxShown)
    let message := "HTTP " ++ natText response.status ++ ": " ++ shown
    if 500 ≤ response.status ∧ response.status < 600 ∨ response.status = 408 then
      .error (.transient message)
    else .error (.permanent message)

end Response

namespace Endpoint

/-- Request that carries a payload. -/
def request (endpoint : Endpoint) (url : Url) (payload : Json) : Request :=
  match payload with
  | .string text =>
    { url
      contentType := "application/x-www-form-urlencoded"
      body := formField endpoint.queryParam text }
  | payload => { url, contentType := "application/json", body := payload.compact }

/-- Failure of a request that cannot be made. -/
def unmakeable (place : String) : AttemptFailure :=
  .permanent ("invalid request: builder error" ++ place)

/-- Result of sending a payload when `remaining` nanoseconds are left. -/
def attempt (endpoint : Endpoint) (payload : Json) (remaining : Nat)
    (deliver : Request → Delivery) : Except AttemptFailure Json :=
  if remaining = 0 then .error (.deadlineExceeded 0)
  else
    match Url.parse? endpoint.address with
    | none => .error (unmakeable "")
    | some url =>
      let place := " for url (" ++ url.text ++ ")"
      if !url.isReachable then .error (unmakeable place)
      else
        match deliver (endpoint.request url payload) with
        | .answered response => response.result
        | .late => .error (.deadlineExceeded remaining)
        | .unreachable => .error (.transient ("network error: error sending request" ++ place))

end Endpoint

end Http
end BatchRun

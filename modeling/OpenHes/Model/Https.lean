import OpenHes.Library.JsonText
import OpenHes.Library.TextBuffer
import OpenHes.Model.TimeSync

/-!
# The HTTPS client

`common/hes_https.c`: the sink that takes the entity in the pieces in which it comes, and what
`hes_https_get` makes of a transfer; and `geo_tz_detect` over it. libcurl is a parameter: it hands
over pieces until one of them is not taken, which makes the transfer fail, and tells at the end how
the transfer and the request went.
-/

set_option autoImplicit false

namespace OpenHes.Model

open OpenHes.Library

/-- `HES_HTTPS_BODY_MAX`. -/
def hesHttpsBodyMax : ℕ := 4096

/-- `GEO_TZ_DEFAULT_URL`. -/
def geoTzDefaultUrl : CStr := lit "https://ipapi.co/json/"

/-- What libcurl does: the pieces of the entity, whether the transfer completes, with a certificate
that is verified, if each is taken, and the status of the reply. -/
structure Transfer where
  chunks : List (List UInt8)
  completes : Bool
  status : ℤ
  deriving DecidableEq

/-- `body_sink_t`; the array that `body` points to. -/
structure BodySink where
  body : List UInt8
  cap : ℕ
  len : ℕ := 0
  overflow : Bool := false
  deriving DecidableEq

/-- `sink_write`, with what it returns; none where it would write outside of the array. -/
def sinkWrite (sink : BodySink) (data : List UInt8) : Option (BodySink × ℕ) :=
  if toSize (sink.cap - 1 - sink.len) < data.length then
    some ({ sink with overflow := true }, 0)
  else
    ((writeBytes sink.body sink.len data).bind fun body =>
      writeBytes body (sink.len + data.length) [0]).map fun body =>
        ({ sink with body := body, len := sink.len + data.length }, data.length)

/-- `curl_easy_perform` on the pieces: it goes on until one is not taken. -/
def deliver : BodySink → List (List UInt8) → Option (BodySink × Bool)
  | sink, [] => some (sink, true)
  | sink, data :: rest =>
    (sinkWrite sink data).bind fun written =>
      if written.2 < data.length then some (written.1, false) else deliver written.1 rest

/-- What `hes_https_get` leaves: its result, the array of the caller and `*body_len`. -/
structure HttpsReply where
  rv : ℤ
  body : List UInt8
  bodyLen : ℕ := 0
  deriving DecidableEq

/-- A failure behind the transfer: the body is emptied. -/
def failedReply (body : List UInt8) : Option HttpsReply :=
  (writeBytes body 0 [0]).map fun body => ⟨-1, body, 0⟩

/-- `hes_https_get` into an array that `bodyCap` is told of; `handle` tells whether
`curl_easy_init` has one. -/
def hesHttpsGet (body : List UInt8) (bodyCap : ℕ) (handle : Bool) (transfer : Transfer) :
    Option HttpsReply :=
  if bodyCap < 2 then some ⟨-1, body, 0⟩
  else
    (writeBytes body 0 [0]).bind fun body =>
      if !handle then some ⟨-1, body, 0⟩
      else
        (deliver { body := body, cap := bodyCap } transfer.chunks).bind fun delivered =>
          let sink := delivered.1
          let ok := delivered.2 && transfer.completes
          if sink.overflow then failedReply sink.body
          else if !ok then failedReply sink.body
          else if transfer.status < 200 || 299 < transfer.status then failedReply sink.body
          else some ⟨0, sink.body, sink.len⟩

/-- What a request meets: the array on the stack before it, whether there is a handle, and the
transfer. -/
structure HttpsExchange where
  stack : List UInt8
  handle : Bool
  transfer : Transfer
  size_eq : stack.length = hesHttpsBodyMax

/-- The endpoint that `geo_tz_detect` asks. -/
def detectEndpoint (url : CStr) : CStr := if url = [] then geoTzDefaultUrl else url

/-- The document that `geo_tz_detect` has of an exchange, if it has one; none, too, where the
exchange is undefined. -/
def answeredDocument (exchange : HttpsExchange) : Option Json :=
  (hesHttpsGet exchange.stack hesHttpsBodyMax exchange.handle exchange.transfer).bind fun reply =>
    if reply.rv ≠ 0 then none else Json.loads (cString reply.body)

/-- What the providers answer over a network, as `refresh_zone` asks for it. -/
def documents (net : CStr → HttpsExchange) (url : CStr) : Option Json :=
  answeredDocument (net (detectEndpoint url))

end OpenHes.Model

import Rnet.Http.HttpParser

/-!
# Responses

`http::HttpResponse`. `buildResponse` ignores the status; `toBuffers` appends to `rep_header_`, so that a
second call would repeat the header. A length goes into the header by `std::to_string`.
-/
namespace Rnet.Http

open Cut
open File (Byte)

/-- The codes of `HttpResponse::Status` that the connection passes on. -/
inductive Status where
  | ok
  | badRequest
  deriving DecidableEq, Repr

structure HttpResponse where
  status : Status
  headers : List (List Byte × List Byte)
  content : List Byte
  headLine : List Byte
  repHeader : List Byte
  deriving DecidableEq, Repr

/-- `std::to_string` of a `size_t`. -/
def sizeText (n : Nat) : List Byte := (Nat.toDigits 10 n).map Char.toUInt8

/-- `Content-Length`. -/
def kContentLength : List Byte := [67, 111, 110, 116, 101, 110, 116, 45, 76, 101, 110, 103, 116, 104]

/-- A header without its line end. -/
def headerLine (header : List Byte × List Byte) : List Byte := header.1 ++ kColon :: header.2

namespace HttpResponse

def new : HttpResponse := ⟨.ok, [], [], [], []⟩

def buildResponse (_ : Status) : HttpResponse := new

/-- The response afterwards, and the two buffers. -/
def toBuffers (rep : HttpResponse) : HttpResponse × List (List Byte) :=
  let lines := rep.headers.map headerLine ++ [headerLine (kContentLength, sizeText rep.content.length), []]
  let rep := { rep with repHeader := rep.repHeader ++ rep.headLine ++ marked crlf lines }
  (rep, [rep.repHeader, rep.content])

end HttpResponse

end Rnet.Http

/-
Module: DocStore.Http.Message
Purpose: the bytes of HTTP messages: requests written, responses read.
Main exports:
  ServerAddress, ServerAddress.ofUrl?, WireRequest.text, WireReply.ofBytes?
-/
import DocStore.Http.Wire

namespace DocStore

/-- Where a server listens. -/
structure ServerAddress where
  host : String
  port : Nat
deriving DecidableEq, Repr

namespace ServerAddress

/-- The server of a plain address. -/
def ofUrl? (url : String) : Option ServerAddress := do
  let rest ← Text.dropLeading? "http://".toList url.toList
  let server := rest.takeWhile fun c => !(Http.isSlash c || c = '?' || c = '#')
  match Text.splitOnce? [':'] server with
  | none => some ⟨String.ofList server, 80⟩
  | some (host, port) => (Text.unsigned? port).map fun n => ⟨String.ofList host, n⟩

/-- The name of a server in a request. -/
def text (a : ServerAddress) : String :=
  a.host ++ ":" ++ toString a.port

end ServerAddress

/-- The end of a line. -/
def lineEnd : String := "\r\n"

/-- The text of a request.  The connection is closed after the response. -/
def WireRequest.text (w : WireRequest) (server : ServerAddress) : String :=
  let headers := [("host", server.text), ("accept", "*/*"), ("connection", "close"),
    ("content-length", toString w.body.utf8ByteSize)] ++ w.headers
  w.method ++ " " ++ w.target ++ " HTTP/1.1" ++ lineEnd ++
    String.join (headers.map fun h => h.1 ++ ": " ++ h.2 ++ lineEnd) ++ lineEnd ++ w.body

namespace WireReply

/-- The bytes before and after the first end of a line. -/
def cutLine : List UInt8 → List UInt8 × List UInt8
  | 13 :: 10 :: rest => ([], rest)
  | b :: rest =>
      let (line, after) := cutLine rest
      (b :: line, after)
  | [] => ([], [])

/-- The text of a line; bytes beyond ASCII are kept as single characters. -/
def lineText (line : List UInt8) : List Char :=
  line.map fun b => Char.ofNat b.toNat

/-- A header, its name in lower case. -/
def headerOf? (line : List UInt8) : Option (String × String) :=
  (Text.splitOnce? [':'] (lineText line)).map fun cut =>
    (Text.lowerAscii (String.ofList cut.1), String.ofList (Text.trim cut.2))

/-- Headers up to the empty line, read in at most the given number of steps, and
what follows them. -/
def readHeaders : Nat → List UInt8 → Option (List (String × String) × List UInt8)
  | 0, _ => none
  | steps + 1, bytes =>
      match cutLine bytes with
      | ([], rest) => some ([], rest)
      | (line, rest) => do
          let header ← headerOf? line
          let (headers, body) ← readHeaders steps rest
          some (header :: headers, body)

/-- The number that hexadecimal digits write. -/
def hexValue (digits : List Char) : Nat :=
  (digits.filterMap Json.Reader.hexValue?).foldl (fun n d => n * 16 + d) 0

/-- The bytes of a body that is sent in pieces, each after a line with its size,
read in at most the given number of steps. -/
def joinPieces : Nat → List UInt8 → List UInt8
  | 0, _ => []
  | steps + 1, bytes =>
      let (line, rest) := cutLine bytes
      let size := hexValue ((lineText line).takeWhile (· != ';'))
      if size = 0 then []
      else rest.take size ++ joinPieces steps (rest.drop (size + 2))

/-- The status in the first line of a response. -/
def statusOf? (line : List UInt8) : Option Nat := do
  let (_, rest) ← Text.splitOnce? [' '] (lineText line)
  Text.unsigned? (rest.takeWhile Char.isDigit)

/-- The body that headers and the bytes after them give. -/
def bodyOf (headers : List (String × String)) (bytes : List UInt8) : List UInt8 :=
  if headers.lookup "transfer-encoding" = some "chunked" then joinPieces (bytes.length + 1) bytes
  else
    match (headers.lookup "content-length").bind Text.natural? with
    | some size => bytes.take size
    | none => bytes

/-- The response that bytes write. -/
def ofBytes? (bytes : List UInt8) : Option WireReply := do
  let (line, rest) := cutLine bytes
  let status ← statusOf? line
  let (headers, after) ← readHeaders (rest.length + 1) rest
  let text ← String.fromUTF8? ⟨(bodyOf headers after).toArray⟩
  some { status, text }

end WireReply

end DocStore

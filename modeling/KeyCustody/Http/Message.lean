import KeyCustody.Http.Exchange

/-!
# Messages on a connection

The text form of requests and responses.  A request asks the server to close
the connection after the response, so a response is complete when its own
length says so or, where it has none, when the connection ends.
-/

namespace KeyCustody

namespace Http

open Text

def lineEnd : String := "\r\n"

/-- The server as a request names it, with its port unless it is the usual
one. -/
def Url.authority (url : Url) : String :=
  if url.port = (if url.encrypted then 443 else 80) then url.host
  else url.host ++ ":" ++ toString url.port

def Request.message (request : Request) : String :=
  let body := (request.body.map Json.render).getD ""
  let header (name value : String) : String := name ++ ": " ++ value ++ lineEnd
  request.method.name ++ " " ++ request.url.target ++ " HTTP/1.1" ++ lineEnd ++
    header "host" request.url.authority ++
    header "user-agent" userAgent ++
    header "x-vault-token" request.token ++
    header "accept" acceptedForm ++
    (match request.contentType with
      | some form => header "content-type" form
      | none => "") ++
    (if request.body.isSome then
      header "content-length" (toString body.utf8ByteSize)
    else "") ++
    header "connection" "close" ++ lineEnd ++ body

def cutLine : List UInt8 → Option (List UInt8 × List UInt8)
  | 13 :: 10 :: rest => some ([], rest)
  | b :: rest => (cutLine rest).map fun cut => (b :: cut.1, cut.2)
  | [] => none

/-- Reads header lines up to the empty one, at most `lines` of them.  Names are
in small letters. -/
def readHeaders : (lines : Nat) → List UInt8 →
    Option (List (String × String) × List UInt8)
  | 0, _ => none
  | lines + 1, bytes => do
      let (line, rest) ← cutLine bytes
      if line = [] then return ([], rest)
      else
        let chars := utf8Chars line
        let name := (chars.takeWhile (· != ':')).map smallLetter
        let value := trim (fun c => c == ' ' || c == '\t')
          ((chars.dropWhile (· != ':')).drop 1)
        let (headers, rest) ← readHeaders lines rest
        return ((.ofList name, .ofList value) :: headers, rest)

/-- The number that hexadecimal digits at the start of a line write. -/
def chunkSize? (line : List UInt8) : Option Nat :=
  let digits := (utf8Chars line).takeWhile fun c => (hexValue? c).isSome
  if digits = [] then none
  else
    (digits.mapM hexValue?).map fun values =>
      values.foldl (fun size value => size * 16 + value) 0

/-- Joins the chunks of a body, at most `chunks` of them.  Without the empty
chunk at the end the body broke off. -/
def joinChunks : (chunks : Nat) → List UInt8 → Option (List UInt8)
  | 0, _ => none
  | chunks + 1, bytes => do
      let (line, rest) ← cutLine bytes
      let size ← chunkSize? line
      if size = 0 then return []
      else if rest.length < size then none
      else
        let (_, rest') ← cutLine (rest.drop size)
        return rest.take size ++ (← joinChunks chunks rest')

/-- The body of a response with the given headers, out of the bytes up to the
end of the connection. -/
def bodyOf (status : Nat) (headers : List (String × String))
    (bytes : List UInt8) : Option (List UInt8) :=
  if status = 204 ∨ status = 304 then some []
  else if (headers.lookup "transfer-encoding").any fun form =>
      form.toList.map smallLetter == "chunked".toList then
    joinChunks bytes.length bytes
  else
    match headers.lookup "content-length" with
    | none => some bytes
    | some digits =>
        let length := decimalValue digits.toList
        if bytes.length < length then none else some (bytes.take length)

def statusOf? (line : List UInt8) : Option Nat :=
  match segments (· == ' ') (utf8Chars line) with
  | version :: code :: _ =>
      if "HTTP/".toList.isPrefixOf version ∧ code.length = 3 ∧
          code.all isDigit then
        some (decimalValue code)
      else none
  | _ => none

/-- The response that the bytes of a connection hold.  Interim responses, of
which there are at most `interim`, are passed over. -/
def Response.ofBytes? : (interim : Nat) → List UInt8 → Option Response
  | 0, _ => none
  | interim + 1, bytes => do
      let (line, rest) ← cutLine bytes
      let status ← statusOf? line
      let (headers, rest) ← readHeaders (rest.length + 1) rest
      if status < 200 then Response.ofBytes? interim rest
      else return { status, body := bodyOf status headers rest }

end Http

end KeyCustody

import MediaFoundation.Lib.Narrow

/-!
# Downloader

The downloader of the HTTP source (`downloader.cpp`) over its curl client
(`http_curl_client.cpp`): one request of the queue, from `BeginDownload` on.
`httpDownloadLoop` is one turn of the download thread; the response that curl
gets for it comes from outside.

Conventions:

* `operatorMutex_` makes a turn of the loop, `Seek` and `Retry` atomic.
* A response is the header lines and the body blocks that reach the callbacks,
  and the code that `curl_easy_perform` ends with. The save function accepts
  every block.
* The lines are told apart by their key; of `Content-Range` the text after the
  key is kept. `leftover` is what the local variable `fileLen`, which is not
  initialised, holds before `sscanf_s`.
* Positions are integers; `size_t` and `long` have 64 bits, `int` has 32.
* The state of the task and the queue of the requests behind this one are left out.
-/

namespace MediaFoundation.Http

def perRequestSize : Int := 48 * 1024 * 10

structure HeaderInfo where
  fileContentLen : Nat := 0
  contentLen : Int := 0
  isChunked : Bool := false
  isClosed : Bool := false

inductive CurlCode where
  | ok | writeError | couldntConnect | operationTimedout | other
deriving DecidableEq

inductive NetworkClientErrorCode where
  | ok | notRetry | timeOut | unknown

inductive Status where
  | ok | errorClient | errorServer
deriving DecidableEq

structure DownloadRequest where
  headerInfo : HeaderInfo := {}
  isHeaderUpdated : Bool := false
  isEos : Bool := false
  startPos : Int
  requestWholeFile : Bool
  requestSize : Int
  retryTimes : Nat
  clientError : NetworkClientErrorCode := .ok
  serverError : Int := 0

structure Downloader where
  currentRequest : DownloadRequest
  shouldStartNextRequest : Bool

-- The header callback

inductive Directive where
  | space
  | literal (c : Char)
  | unsigned
deriving DecidableEq

def directives : List Char → List Directive
  | '%' :: 'u' :: rest => .unsigned :: directives rest
  | ' ' :: rest => .space :: directives rest
  | c :: rest => .literal c :: directives rest
  | [] => []

/-- The numbers that `sscanf_s` assigns: it stops at the first directive that
the input does not match. -/
def scan : List Directive → List Char → List Nat
  | [], _ => []
  | .space :: ds, cs => scan ds (cs.dropWhile Char.isWhitespace)
  | .literal _ :: _, [] => []
  | .literal c :: ds, c' :: cs => if c = c' then scan ds cs else []
  | .unsigned :: ds, cs =>
    let cs := cs.dropWhile Char.isWhitespace
    let digits := cs.takeWhile Char.isDigit
    if digits = [] then []
    else
      digits.foldl (fun n c => 10 * n + (c.toNat - '0'.toNat)) 0 :: scan ds (cs.drop digits.length)

def rangeFormat : List Directive := directives "bytes %uld-%uld/%uld".toList

/-- `fileLen` after `sscanf_s`: `%u` would assign an `unsigned int`, the lower half. -/
def fileLen (strRange : List Char) (leftover : Nat) : Nat :=
  match (scan rangeFormat strRange)[2]? with
  | some n => leftover / 2 ^ 32 * 2 ^ 32 + n % 2 ^ 32
  | none => leftover

inductive HeaderLine where
  | contentLength (value : Int)
  | transferEncoding (chunked : Bool)
  | contentRange (strRange : List Char) (leftover : Nat)
  | other

def HeaderInfo.read (info : HeaderInfo) : HeaderLine → HeaderInfo
  | .contentLength value => { info with contentLen := value }
  | .transferEncoding chunked => if chunked then { info with isChunked := true } else info
  | .contentRange strRange leftover =>
    if info.fileContentLen = 0 then { info with fileContentLen := fileLen strRange leftover }
    else info
  | .other => info

def rxHeaderData (r : DownloadRequest) (line : HeaderLine) : DownloadRequest :=
  { r with headerInfo := r.headerInfo.read line, isHeaderUpdated := true }

-- The body callback

/-- The file's length when a block arrives: the length of the content, where
no range has told another. -/
def HeaderInfo.known (info : HeaderInfo) : HeaderInfo :=
  if info.fileContentLen = 0 ∧ 0 < info.contentLen then
    { info with fileContentLen := info.contentLen.toNat }
  else info

/-- `RxBodyData`; `none` for a block that it refuses. -/
def rxBodyData (r : DownloadRequest) (buffer : List UInt8) : Option DownloadRequest :=
  let info := r.headerInfo.known
  if info.fileContentLen = 0 then none
  else some { r with headerInfo := info, startPos := r.startPos + buffer.length }

/-- The blocks of a body, up to one that is refused: the request after them,
the blocks that were saved, and whether all of them were. -/
def rxBody (r : DownloadRequest) : List (List UInt8) → DownloadRequest × List (List UInt8) × Bool
  | [] => (r, [], true)
  | buffer :: rest =>
    match rxBodyData r buffer with
    | none => (r, [], false)
    | some r' =>
      let (r'', saved, accepted) := rxBody r' rest
      -- the save function takes the length as a `uint32_t`
      (r'', buffer.take (buffer.length % 2 ^ 32) :: saved, accepted)

-- RequestData

structure ByteRange where
  first : Int
  last : Option Int

def requestRange (startPos len : Int) : Option ByteRange :=
  if 0 ≤ startPos then
    if 0 < len then some ⟨startPos, some (startPos + len - 1)⟩ else some ⟨startPos, none⟩
  else none

structure Response where
  headers : List HeaderLine
  body : List (List UInt8)
  code : CurlCode
  httpCode : Int

def clientError : CurlCode → NetworkClientErrorCode
  | .ok => .ok
  | .writeError => .notRetry
  | .couldntConnect | .operationTimedout => .timeOut
  | .other => .unknown

/-- The end of `RequestData`, after `curl_easy_perform`. -/
def transferResult (r : DownloadRequest) (code : CurlCode) (httpCode : Int) :
    Status × DownloadRequest :=
  if code ≠ .ok then (.errorClient, { r with clientError := clientError code, serverError := 0 })
  else if 400 ≤ httpCode then
    (.errorServer, { r with clientError := .ok, serverError := httpCode })
  else (.ok, { r with clientError := .ok, serverError := 0 })

/-- `RequestData` with the response that curl gets, and the blocks that are
saved. A block that the callback refuses ends the transfer. -/
def requestData (r : DownloadRequest) (resp : Response) :
    Status × DownloadRequest × List (List UInt8) :=
  let (r, saved, accepted) := rxBody (resp.headers.foldl rxHeaderData r) resp.body
  let (ret, r) := transferResult r (if accepted then resp.code else .writeError) resp.httpCode
  (ret, r, saved)

-- The downloader

def beginDownload (requestWholeFile : Bool) : Downloader where
  currentRequest := { startPos := 0, requestWholeFile, requestSize := 1, retryTimes := 0 }
  shouldStartNextRequest := false

def toInt64 (n : Nat) : Int := (BitVec.ofNat 64 n).toInt

def handleRetOK (d : Downloader) : Downloader :=
  let r := { d.currentRequest with retryTimes := 0 }
  let remaining := toInt64 r.headerInfo.fileContentLen - r.startPos
  if 0 < r.headerInfo.fileContentLen ∧ remaining ≤ 0 then
    ⟨{ r with isEos := true }, true⟩
  else if r.headerInfo.fileContentLen = 0 ∧ remaining ≤ 0 then
    ⟨{ r with isEos := true, headerInfo := { r.headerInfo with isClosed := true } }, true⟩
  else if remaining < perRequestSize then
    { d with currentRequest := { r with requestSize := remaining } }
  else { d with currentRequest := { r with requestSize := perRequestSize } }

def nextRange (r : DownloadRequest) : Option ByteRange :=
  requestRange (if r.requestWholeFile then -1 else r.startPos) r.requestSize

/-- One turn of `HttpDownloadLoop` with the response to its request, and the
blocks that are saved. It is `none` when the turn takes the next request from
the queue. -/
def httpDownloadLoop (d : Downloader) (resp : Response) :
    Option (Downloader × List (List UInt8)) :=
  if d.shouldStartNextRequest then none
  else
    let (ret, r, saved) := requestData d.currentRequest resp
    if ret = .ok then some (handleRetOK { d with currentRequest := r }, saved)
    else some ({ d with currentRequest := r }, saved)

/-- `GetFileContentLength`, which waits for the length; `none` while it waits. -/
def getFileContentLength (r : DownloadRequest) : Option Nat :=
  let info := r.headerInfo
  if info.fileContentLen = 0 ∧ info.isChunked = false ∧ info.isClosed = false then none
  else some info.fileContentLen

def seek (d : Downloader) (offset : Int) : Option Downloader :=
  (getFileContentLength d.currentRequest).map fun contentLength =>
    let r := d.currentRequest
    let startPos :=
      if 0 ≤ offset ∧ offset < toInt64 contentLength then offset else r.startPos
    let temp := toInt64 contentLength - startPos
    let requestSize := (BitVec.ofInt 32 (min temp perRequestSize)).toInt
    { currentRequest := { r with startPos, requestSize, isEos := false }
      shouldStartNextRequest := false }

def retry (d : Downloader) : Option Downloader :=
  if d.shouldStartNextRequest then none
  else
    let r := d.currentRequest
    some { d with currentRequest := { r with retryTimes := r.retryTimes + 1, isEos := false } }

end MediaFoundation.Http

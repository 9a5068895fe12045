import TouchBar.Lib.Pairs
import TouchBar.Schema.Commands
import TouchBar.Supervisor.Http

/-!
# Chains of redirects

The broker of `http.request.v1` follows redirects itself: one loop returns the last response
inline, another one streams it as events.  The two loops are written out twice in the broker,
and they are here.

A transport answers one request with what it has read.  The transport over `reqwest` reads the
bodies of the two loops differently; any other transport streams what it sends.
-/

namespace TouchBar.Supervisor

open TouchBar.Rust TouchBar.Lib TouchBar.Policy TouchBar.Schema Outcome
open TouchBar.Rust.Net

def httpRequestOperation : String := "request"
def httpStreamOperation : String := "request-stream"
def maxRedirects : ℕ := 5

/-! ## Transports -/

structure HttpTransportResponse where
  status : UInt16
  location : Option String
  contentType : Option String
  etag : Option String
  contentEncoding : Option String
  body : List UInt8
deriving DecidableEq, Repr

def isRedirect (status : UInt16) : Bool :=
  status = 301 || status = 302 || status = 303 || status = 307 || status = 308

/-- A header of a response, where each fault is the fault of the server. -/
def validateResponseHeader (value : String) : Outcome BrokerErrorCode Unit :=
  (validateHeaderValue value).mapErr fun _ => .backendFailed

def validateTransportResponse (response : HttpTransportResponse) (maximumResponseBytes : ℕ) :
    Outcome BrokerErrorCode Unit := do
  rejectIf (!isHttpStatus response.status) .backendFailed
  rejectIf (maximumResponseBytes < response.body.length) .quotaExceeded
  rejectIf (response.contentEncoding.any fun encoding =>
    Text.toAsciiLowercase encoding ≠ "identity") .unsupported
  [response.location, response.contentType, response.etag,
    response.contentEncoding].reduceOption.forM validateResponseHeader

/-- What a transport calls while it streams. -/
inductive HttpStreamCallback where
  | metadata (response : HttpTransportResponse)
  | chunk (bytes : List UInt8)
deriving DecidableEq, Repr

/-- The callbacks of a transport, in order up to the first one that fails, and what it returns
after them. -/
structure HttpStreamed where
  callbacks : List HttpStreamCallback
  result : Outcome BrokerErrorCode HttpTransportResponse

/-- `bytes.chunks(size)`. -/
def chunks (size : ℕ) (bytes : List UInt8) : List (List UInt8) :=
  (List.range ((bytes.length + (size - 1)) / size)).map fun i => (bytes.drop (i * size)).take size

/-- The provided `HttpTransport::stream`, after what `send` has returned. -/
def providedStream (answer : Outcome BrokerErrorCode HttpTransportResponse)
    (maximumResponseBytes : ℕ) : HttpStreamed :=
  match answer with
  | ok response =>
    match validateTransportResponse response maximumResponseBytes with
    | ok _ =>
      if isRedirect response.status then ⟨[.metadata response], ok response⟩
      else ⟨.metadata response :: (chunks maxHttpStreamChunkBytes response.body).map .chunk,
        ok { response with body := [] }⟩
    | err code => ⟨[], err code⟩
    | .panic => ⟨[], .panic⟩
  | err code => ⟨[], err code⟩
  | .panic => ⟨[], .panic⟩

/-- What `reqwest` knows of a response: a header is `none` where it is no text, and the length
where it is no number; the body arrives in pieces, after which reading may fail. -/
structure ReqwestResponse where
  status : UInt16
  location : Option (Option String)
  contentType : Option (Option String)
  etag : Option (Option String)
  contentEncoding : Option (Option String)
  contentLength : Option (Option ℕ)
  pieces : List (List UInt8)
  readError : Option BrokerErrorCode
deriving DecidableEq, Repr

namespace ReqwestResponse

def safeHeader : Option (Option String) → Outcome BrokerErrorCode (Option String)
  | none => return none
  | some none => err .backendFailed
  | some (some value) => do
    validateResponseHeader value
    return some value

/-- The response without its body. -/
def metadata (response : ReqwestResponse) : Outcome BrokerErrorCode HttpTransportResponse := do
  let location ← safeHeader response.location
  let contentType ← safeHeader response.contentType
  let etag ← safeHeader response.etag
  let contentEncoding ← safeHeader response.contentEncoding
  return ⟨response.status, location, contentType, etag, contentEncoding, []⟩

def checkContentLength (response : ReqwestResponse) (maximumResponseBytes : ℕ) :
    Outcome BrokerErrorCode Unit :=
  match response.contentLength with
  | none => ok ()
  | some length => do
    let length ← okOr length .backendFailed
    rejectIf (maximumResponseBytes < length) .quotaExceeded

/-- `response.take(maximum + 1).read_to_end(body)` and the check of the length. -/
def readToEnd (response : ReqwestResponse) (maximumResponseBytes : ℕ) :
    Outcome BrokerErrorCode (List UInt8) :=
  if maximumResponseBytes < response.pieces.flatten.length then err .quotaExceeded
  else
    match response.readError with
    | some code => err code
    | none => ok response.pieces.flatten

/-- The loop that reads pieces into a buffer: the chunks that are passed on, and how it ends. -/
def readPieces (maximumResponseBytes : ℕ) (readError : Option BrokerErrorCode) :
    ℕ → List (List UInt8) → List HttpStreamCallback × Outcome BrokerErrorCode Unit
  | _, [] => ([], rejectCancelled readError)
  | total, piece :: pieces =>
    if piece.isEmpty then ([], ok ())
    else
      match U64.add total piece.length with
      | none => ([], err .quotaExceeded)
      | some total =>
        if maximumResponseBytes < total then ([], err .quotaExceeded)
        else
          let (callbacks, result) := readPieces maximumResponseBytes readError total pieces
          (.chunk piece :: callbacks, result)

/-- `ReqwestHttpTransport::send` after the request was sent. -/
def send (response : ReqwestResponse) (maximumResponseBytes : ℕ) :
    Outcome BrokerErrorCode HttpTransportResponse := do
  let metadata ← response.metadata
  response.checkContentLength maximumResponseBytes
  if isRedirect response.status then return metadata
  else
    let body ← response.readToEnd maximumResponseBytes
    return { metadata with body }

/-- The checks of `ReqwestHttpTransport::stream` before its first callback. -/
def checkedMetadata (response : ReqwestResponse) (maximumResponseBytes : ℕ) :
    Outcome BrokerErrorCode HttpTransportResponse := do
  let metadata ← response.metadata
  validateTransportResponse metadata maximumResponseBytes
  response.checkContentLength maximumResponseBytes
  return metadata

/-- `ReqwestHttpTransport::stream` after the request was sent. -/
def stream (response : ReqwestResponse) (maximumResponseBytes : ℕ) : HttpStreamed :=
  match response.checkedMetadata maximumResponseBytes with
  | ok metadata =>
    if isRedirect response.status then ⟨[.metadata metadata], ok metadata⟩
    else
      let (callbacks, result) :=
        readPieces maximumResponseBytes response.readError 0 response.pieces
      ⟨.metadata metadata :: callbacks, (fun _ => metadata) <$> result⟩
  | err code => ⟨[], err code⟩
  | .panic => ⟨[], .panic⟩

end ReqwestResponse

/-- What one request is answered with: by a transport that streams what it sends, or by the
transport over `reqwest`. -/
inductive HttpExchange where
  | provided (answer : Outcome BrokerErrorCode HttpTransportResponse)
  | reqwest (answer : Outcome BrokerErrorCode ReqwestResponse)

namespace HttpExchange

def send : HttpExchange → ℕ → Outcome BrokerErrorCode HttpTransportResponse
  | provided answer, _ => answer
  | reqwest answer, maximumResponseBytes => do
    let response ← answer
    response.send maximumResponseBytes

def stream : HttpExchange → ℕ → HttpStreamed
  | provided answer, maximumResponseBytes => providedStream answer maximumResponseBytes
  | reqwest (ok response), maximumResponseBytes => response.stream maximumResponseBytes
  | reqwest (err code), _ => ⟨[], err code⟩
  | reqwest .panic, _ => ⟨[], .panic⟩

end HttpExchange

/-! ## The two loops -/

/-- A request as it is handed to the transport. -/
structure SentRequest where
  request : HttpRequest
  url : Url
  addresses : List SocketAddr
deriving DecidableEq

/-- What a chain of redirects leaves behind: the requests that were sent, the events that were
delivered and the bytes that `emit_chunk` has counted. -/
structure HttpRun where
  sent : List SentRequest
  delivered : List HttpStreamEvent
  totalBytes : ℕ

/-- The outside: the resolver and the answers at each hop, the reason of a cancellation at each
check of a hop, and whether the events are taken. -/
structure HttpNetwork where
  resolve : ℕ → String → ℕ → Outcome BrokerErrorCode (List SocketAddr)
  exchange : ℕ → HttpExchange
  reason : ℕ → ℕ → Option BrokerErrorCode
  emitBuffered : List HttpStreamEvent → Outcome BrokerErrorCode Unit

section Loops

variable (parse : String → Option Url) (join : Url → String → Option Url) (network : HttpNetwork)

def authorizeWireRequest (request : HttpRequest) (scope : HttpRequestScope) :
    Outcome BrokerErrorCode Url := do
  let url ← okOr (parse request.url) .invalidRequest
  authorizeWireRequestForUrl request scope url
  return url

def decodeHttpRequest (request : BackendRequest) (operation : String) :
    Outcome BrokerErrorCode (HttpRequest × HttpRequestScope) := do
  rejectIf (request.capability ≠ .httpRequestV1 || request.operation ≠ operation) .invalidRequest
  match request.authorizedScope with
  | .httpRequest scope => do
    let wire ← mapSchemaError (HttpRequest.decode request.payload)
    return (wire, scope)
  | _ => err .invalidRequest

def recordSent (sent : SentRequest) : Prog HttpRun BrokerErrorCode Unit :=
  Prog.modify fun run => { run with sent := run.sent ++ [sent] }

/-- The loop of `execute_inner` over the counts that are left. -/
def executeInnerFrom (scope : HttpRequestScope) (maximumResponseBytes : ℕ) :
    List ℕ → HttpRequest → Url → ℕ → Prog HttpRun BrokerErrorCode HttpResponse
  | [], _, _, _ => Prog.fail .internal
  | redirectCount :: counts, wire, url, transmitted => do
    Prog.lift (rejectCancelled (network.reason redirectCount 0))
    Prog.lift (authorizeUrl scope wire.method url)
    let transmitted ← Prog.lift
      (accountRequestBody transmitted wire.body.length scope.maximumRequestBytes)
    let addresses ← Prog.lift
      (resolveAndValidate (network.resolve redirectCount) url scope.privateNetwork
        (network.reason redirectCount 1) (network.reason redirectCount 2))
    recordSent ⟨wire, url, addresses⟩
    let response ← Prog.lift ((network.exchange redirectCount).send maximumResponseBytes)
    Prog.lift (validateTransportResponse response maximumResponseBytes)
    match response.location.filter fun _ => isRedirect response.status with
    | none =>
      return ⟨response.status, url.asStr, response.contentType, response.etag, response.body⟩
    | some location => do
      Prog.lift (rejectIf (redirectCount = maxRedirects) .quotaExceeded)
      let next ← Prog.lift (okOr (join url location) .invalidRequest)
      let wire := if response.status = 303 && wire.method ≠ .head then
        { wire with method := .get, body := [], contentType := none } else wire
      Prog.lift (authorizeWireRequestForUrl wire scope next)
      executeInnerFrom scope maximumResponseBytes counts wire next transmitted

def executeInner (request : BackendRequest) : Prog HttpRun BrokerErrorCode HttpResponse := do
  let (wire, scope) ← Prog.lift (decodeHttpRequest request httpRequestOperation)
  let url ← Prog.lift (authorizeWireRequest parse wire scope)
  executeInnerFrom join network scope (min scope.maximumResponseBytes maxHttpInlineBodyBytes)
    (List.range (maxRedirects + 1)) wire url 0

/-- `events.emit_buffered` with the payload of an event. -/
def emitEvent (event : HttpStreamEvent) : Prog HttpRun BrokerErrorCode Unit := do
  let _ ← Prog.lift (mapSchemaError event.encode)
  let delivered ← Prog.get HttpRun.delivered
  Prog.lift (network.emitBuffered delivered)
  Prog.modify fun run => { run with delivered := run.delivered ++ [event] }

def emitMetadata (currentUrl : String) (response : HttpTransportResponse) :
    Prog HttpRun BrokerErrorCode Unit :=
  if !isRedirect response.status || response.location.isNone then
    emitEvent network (.metadata response.status currentUrl response.contentType response.etag)
  else pure ()

def emitChunk (maximumResponseBytes : ℕ) (bytes : List UInt8) :
    Prog HttpRun BrokerErrorCode Unit := do
  let total ← Prog.get HttpRun.totalBytes
  let total ← Prog.lift (okOr (U64.add total bytes.length) .quotaExceeded)
  Prog.modify fun run => { run with totalBytes := total }
  Prog.lift (rejectIf (maximumResponseBytes < total) .quotaExceeded)
  emitEvent network (.chunk bytes)

def runCallbacks (currentUrl : String) (maximumResponseBytes : ℕ) :
    List HttpStreamCallback → Prog HttpRun BrokerErrorCode Unit
  | [] => pure ()
  | .metadata response :: callbacks => do
    emitMetadata network currentUrl response
    runCallbacks currentUrl maximumResponseBytes callbacks
  | .chunk bytes :: callbacks => do
    emitChunk network maximumResponseBytes bytes
    runCallbacks currentUrl maximumResponseBytes callbacks

/-- The loop of `execute_stream` over the counts that are left. -/
def executeStreamFrom (scope : HttpRequestScope) (maximumResponseBytes : ℕ) :
    List ℕ → HttpRequest → Url → ℕ → Prog HttpRun BrokerErrorCode ℕ
  | [], _, _, _ => Prog.fail .internal
  | redirectCount :: counts, wire, url, transmitted => do
    Prog.lift (rejectCancelled (network.reason redirectCount 0))
    Prog.lift (authorizeUrl scope wire.method url)
    let transmitted ← Prog.lift
      (accountRequestBody transmitted wire.body.length scope.maximumRequestBytes)
    let addresses ← Prog.lift
      (resolveAndValidate (network.resolve redirectCount) url scope.privateNetwork
        (network.reason redirectCount 1) (network.reason redirectCount 2))
    recordSent ⟨wire, url, addresses⟩
    let streamed := (network.exchange redirectCount).stream maximumResponseBytes
    runCallbacks network url.asStr maximumResponseBytes streamed.callbacks
    let response ← Prog.lift streamed.result
    Prog.lift (validateTransportResponse response maximumResponseBytes)
    match response.location.filter fun _ => isRedirect response.status with
    | none => Prog.get HttpRun.totalBytes
    | some location => do
      Prog.lift (rejectIf (redirectCount = maxRedirects) .quotaExceeded)
      let next ← Prog.lift (okOr (join url location) .invalidRequest)
      let wire := if response.status = 303 && wire.method ≠ .head then
        { wire with method := .get, body := [], contentType := none } else wire
      Prog.lift (authorizeWireRequestForUrl wire scope next)
      executeStreamFrom scope maximumResponseBytes counts wire next transmitted

def executeStream (wire : HttpRequest) (scope : HttpRequestScope) :
    Prog HttpRun BrokerErrorCode ℕ := do
  let url ← Prog.lift (authorizeWireRequest parse wire scope)
  executeStreamFrom join network scope scope.maximumResponseBytes (List.range (maxRedirects + 1))
    wire url 0

/-- `ResourceBackend::open` and its thread, which ends with the number of bytes. -/
def openHttpStream (request : BackendRequest) : Prog HttpRun BrokerErrorCode ℕ := do
  let (wire, scope) ← Prog.lift (decodeHttpRequest request httpStreamOperation)
  executeStream parse join network wire scope

end Loops

/-! ## What a chain may send -/

/-- A request that may be sent at a hop: it passes the checks for its URL, and it goes only to
addresses of the host of the URL that are allowed. -/
structure Contained (network : HttpNetwork) (scope : HttpRequestScope) (hop : ℕ)
    (sent : SentRequest) : Prop where
  authorized : authorizeWireRequestForUrl sent.request scope sent.url = ok ()
  addresses : ∃ port host resolved, sent.url.portOrKnownDefault = some port ∧
    sent.url.host = some host ∧ hostAddresses (network.resolve hop) host port = ok resolved ∧
    ∀ address ∈ sent.addresses, address ∈ resolved ∧ address.port = port ∧
      addressAllowed address.ip scope.privateNetwork = true

def uploadedBytes (run : HttpRun) : ℕ :=
  (run.sent.map fun sent => sent.request.body.length).sum

def eventBytes : HttpStreamEvent → ℕ
  | .chunk bytes => bytes.length
  | _ => 0

def downloadedBytes (run : HttpRun) : ℕ := (run.delivered.map eventBytes).sum

/-- What a chain may leave behind. -/
structure ChainContained (network : HttpNetwork) (scope : HttpRequestScope) (run : HttpRun) :
    Prop where
  requests : ∀ hop sent, run.sent[hop]? = some sent → Contained network scope hop sent
  count : run.sent.length ≤ maxRedirects + 1
  uploaded : uploadedBytes run ≤ scope.maximumRequestBytes
  downloaded : downloadedBytes run ≤ scope.maximumResponseBytes

/-- The state of a chain before a hop, and also within it. -/
structure AtHop (network : HttpNetwork) (scope : HttpRequestScope) (hop transmitted : ℕ)
    (run : HttpRun) : Prop where
  requests : ∀ hop sent, run.sent[hop]? = some sent → Contained network scope hop sent
  count : run.sent.length = hop
  uploaded : uploadedBytes run = transmitted
  transmitted_le : transmitted ≤ scope.maximumRequestBytes
  downloaded : downloadedBytes run ≤ run.totalBytes
  downloaded_le : downloadedBytes run ≤ scope.maximumResponseBytes

section Checks

variable {network : HttpNetwork} {scope : HttpRequestScope} {wire : HttpRequest} {url : Url}
  {hop transmitted : ℕ} {run : HttpRun}

lemma mem_of_mem_eraseReps_loop {address last : SocketAddr} {rest acc : List SocketAddr}
    (h : address ∈ List.eraseRepsBy.loop (· == ·) last rest acc) :
    address = last ∨ address ∈ rest ∨ address ∈ acc := by
  induction rest generalizing last acc with
  | nil =>
    rw [List.eraseRepsBy.loop, List.mem_reverse, List.mem_cons] at h
    rcases h with h | h
    · exact .inl h
    · exact .inr (.inr h)
  | cons next rest ih =>
    rw [List.eraseRepsBy.loop] at h
    cases hsame : last == next with
    | true =>
      rw [hsame] at h
      rcases ih h with h | h | h
      · exact .inl h
      · exact .inr (.inl (List.mem_cons_of_mem _ h))
      · exact .inr (.inr h)
    | false =>
      rw [hsame] at h
      rcases ih h with h | h | h
      · exact .inr (.inl (h ▸ List.mem_cons_self))
      · exact .inr (.inl (List.mem_cons_of_mem _ h))
      · rcases List.mem_cons.mp h with h | h
        · exact .inl h
        · exact .inr (.inr h)

lemma mem_of_mem_eraseReps {address : SocketAddr} {l : List SocketAddr}
    (h : address ∈ l.eraseReps) : address ∈ l := by
  cases l with
  | nil => exact h
  | cons first rest =>
    rcases mem_of_mem_eraseReps_loop h with h | h | h
    · exact h ▸ List.mem_cons_self
    · exact List.mem_cons_of_mem _ h
    · cases h

/-- What is handed to the transport after the checks of a hop. -/
lemma contained_of_checks {reasonBefore reasonAfter : Option BrokerErrorCode}
    {addresses : List SocketAddr} (hwire : authorizeWireRequestForUrl wire scope url = ok ())
    (h : resolveAndValidate (network.resolve hop) url scope.privateNetwork reasonBefore
      reasonAfter = ok addresses) : Contained network scope hop ⟨wire, url, addresses⟩ := by
  refine ⟨hwire, ?_⟩
  simp only [resolveAndValidate, bind_eq_ok, okOr_eq_ok, rejectIf_eq_ok, pure_eq, ok.injEq,
    Bool.or_eq_false_iff, List.any_eq_false] at h
  obtain ⟨_, -, port, hport, host, hhost, resolved, hresolved, _, -, _, ⟨-, hall⟩, rfl⟩ := h
  refine ⟨port, host, resolved, hport, hhost, hresolved, fun address haddress => ?_⟩
  have hone := hall address haddress
  simp only [Bool.or_eq_true, decide_eq_true_eq, Bool.not_eq_true', not_or,
    Bool.not_eq_false, not_not] at hone
  refine ⟨?_, hone⟩
  exact List.mem_insertionSort _ |>.mp (mem_of_mem_eraseReps haddress)

lemma accountRequestBody_eq_ok {next maximum total : ℕ} :
    accountRequestBody transmitted next maximum = ok total ↔
      transmitted + next < U64.size ∧ transmitted + next ≤ maximum ∧
        transmitted + next = total := by
  simp only [accountRequestBody, bind_eq_ok, okOr_eq_ok, U64.add_eq_some, rejectIf_eq_ok,
    pure_eq, ok.injEq, decide_eq_false_iff_not, not_lt]
  constructor
  · rintro ⟨_, ⟨hlt, rfl⟩, _, hle, rfl⟩
    exact ⟨hlt, hle, rfl⟩
  · rintro ⟨hlt, hle, rfl⟩
    exact ⟨_, ⟨hlt, rfl⟩, (), hle, rfl⟩

lemma AtHop.contained (h : AtHop network scope hop transmitted run)
    (hhop : hop ≤ maxRedirects + 1) : ChainContained network scope run :=
  ⟨h.requests, h.count.trans_le hhop, h.uploaded.trans_le h.transmitted_le, h.downloaded_le⟩

/-- One more request. -/
lemma AtHop.record {sent : SentRequest} {total : ℕ} (h : AtHop network scope hop transmitted run)
    (hsent : Contained network scope hop sent)
    (htotal : transmitted + sent.request.body.length = total)
    (hle : total ≤ scope.maximumRequestBytes) :
    AtHop network scope (hop + 1) total { run with sent := run.sent ++ [sent] } where
  requests place other hother := by
    rcases Nat.lt_or_ge place run.sent.length with hlt | hge
    · rw [List.getElem?_append_left hlt] at hother
      exact h.requests place other hother
    · rw [List.getElem?_append_right hge, List.getElem?_singleton] at hother
      split_ifs at hother with hzero
      obtain rfl := Option.some.inj hother
      have hplace : place = hop := by
        have hcount := h.count
        omega
      exact hplace ▸ hsent
  count := by
    rw [List.length_append, h.count, List.length_singleton]
  uploaded := by
    have huploaded := h.uploaded
    simp only [uploadedBytes, List.map_append, List.sum_append, List.map_cons, List.map_nil,
      List.sum_cons, List.sum_nil] at huploaded ⊢
    omega
  transmitted_le := hle
  downloaded := h.downloaded
  downloaded_le := h.downloaded_le

end Checks

/-! ## Containment -/

section Containment

variable {parse : String → Option Url} {join : Url → String → Option Url} {network : HttpNetwork}
  {scope : HttpRequestScope} {hop transmitted : ℕ}

lemma leaves_executeInnerFrom (limit : ℕ) {left : ℕ} {wire : HttpRequest} {url : Url}
    (hleft : hop + left = maxRedirects + 1)
    (hwire : authorizeWireRequestForUrl wire scope url = ok ()) :
    Prog.Leaves (AtHop network scope hop transmitted) (ChainContained network scope)
      (executeInnerFrom join network scope limit (List.range' hop left) wire url transmitted) := by
  induction left generalizing hop transmitted wire url with
  | zero =>
    intro run hrun
    exact hrun.contained hleft.le
  | succ left ih =>
    have hstop : ∀ run, AtHop network scope hop transmitted run →
        ChainContained network scope run :=
      fun run hrun => hrun.contained (by omega)
    rw [List.range'_succ, executeInnerFrom]
    refine Prog.leaves_lift_bind hstop fun _ _ => ?_
    refine Prog.leaves_lift_bind hstop fun _ _ => ?_
    refine Prog.leaves_lift_bind hstop fun total htotal => ?_
    refine Prog.leaves_lift_bind hstop fun addresses haddresses => ?_
    obtain ⟨-, hle, hsum⟩ := accountRequestBody_eq_ok.mp htotal
    have hcontained := contained_of_checks hwire haddresses
    -- the request is recorded: from here on the chain stands at the next hop
    refine Prog.leaves_modify_bind (Q := AtHop network scope (hop + 1) total)
      (fun run hrun => hrun.record hcontained hsum (hsum ▸ hle)) ?_
    have hnext : ∀ run, AtHop network scope (hop + 1) total run →
        ChainContained network scope run :=
      fun run hrun => hrun.contained (by omega)
    refine Prog.leaves_lift_bind hnext fun response _ => ?_
    refine Prog.leaves_lift_bind hnext fun _ _ => ?_
    split
    · exact Prog.leaves_pure hnext
    · refine Prog.leaves_lift_bind hnext fun _ _ => ?_
      refine Prog.leaves_lift_bind hnext fun next _ => ?_
      refine Prog.leaves_lift_bind hnext fun _ hauthorized => ?_
      exact ih (by omega) hauthorized

lemma leaves_emitEvent {event : HttpStreamEvent} {n : ℕ} :
    Prog.Leaves
      (fun run => AtHop network scope hop transmitted run ∧ run.totalBytes = n ∧
        downloadedBytes run + eventBytes event ≤ n ∧
        downloadedBytes run + eventBytes event ≤ scope.maximumResponseBytes)
      (AtHop network scope hop transmitted) (emitEvent network event) := by
  refine Prog.leaves_lift_bind (fun _ hrun => hrun.1) fun _ _ => ?_
  refine Prog.leaves_get_bind fun _ => ?_
  refine Prog.leaves_lift_bind (fun _ hrun => hrun.1.1) fun _ _ => ?_
  refine Prog.leaves_modify fun run hrun => ?_
  obtain ⟨⟨hat, htotal, hbound, hmaximum⟩, -⟩ := hrun
  have hbytes : downloadedBytes { run with delivered := run.delivered ++ [event] } =
      downloadedBytes run + eventBytes event := by
    simp [downloadedBytes]
  exact { requests := hat.requests
          count := hat.count
          uploaded := hat.uploaded
          transmitted_le := hat.transmitted_le
          downloaded := by
            rw [hbytes]
            exact hbound.trans htotal.ge
          downloaded_le := by
            rw [hbytes]
            exact hmaximum }

lemma leaves_emitMetadata {currentUrl : String} {response : HttpTransportResponse} :
    Prog.Leaves (AtHop network scope hop transmitted) (AtHop network scope hop transmitted)
      (emitMetadata network currentUrl response) := by
  rw [emitMetadata]
  split
  · intro run hrun
    exact leaves_emitEvent (n := run.totalBytes) run
      ⟨hrun, rfl, hrun.downloaded, hrun.downloaded_le⟩
  · exact Prog.leaves_pure fun _ hrun => hrun

/-- A chunk is counted before it is delivered. -/
lemma leaves_emitChunk {bytes : List UInt8} :
    Prog.Leaves (AtHop network scope hop transmitted) (AtHop network scope hop transmitted)
      (emitChunk network scope.maximumResponseBytes bytes) := by
  refine Prog.leaves_get_bind fun counted => ?_
  refine Prog.leaves_lift_bind (fun _ hrun => hrun.1) fun total htotal => ?_
  simp only [okOr_eq_ok, U64.add_eq_some] at htotal
  refine Prog.leaves_modify_bind
    (Q := fun run => AtHop network scope hop transmitted run ∧ run.totalBytes = total ∧
      downloadedBytes run + bytes.length ≤ total) ?_ ?_
  · rintro run ⟨hrun, rfl⟩
    have hdownloaded := hrun.downloaded
    have hle : downloadedBytes run + bytes.length ≤ total := by omega
    refine ⟨⟨hrun.requests, hrun.count, hrun.uploaded, hrun.transmitted_le, ?_,
      hrun.downloaded_le⟩, rfl, hle⟩
    exact (Nat.le_add_right _ _).trans hle
  · refine Prog.leaves_lift_bind (fun _ hrun => hrun.1) fun _ hquota => ?_
    rw [rejectIf_eq_ok, decide_eq_false_iff_not, not_lt] at hquota
    intro run hrun
    obtain ⟨hat, hsame, hle⟩ := hrun
    exact leaves_emitEvent (n := total) run ⟨hat, hsame, hle, hle.trans hquota⟩

lemma leaves_runCallbacks {currentUrl : String} (callbacks : List HttpStreamCallback) :
    Prog.Leaves (AtHop network scope hop transmitted) (AtHop network scope hop transmitted)
      (runCallbacks network currentUrl scope.maximumResponseBytes callbacks) := by
  induction callbacks with
  | nil => exact Prog.leaves_pure fun _ hrun => hrun
  | cons callback callbacks ih =>
    cases callback with
    | metadata response =>
      exact Prog.leaves_bind leaves_emitMetadata (fun _ hrun => hrun) fun _ => ih
    | chunk bytes =>
      exact Prog.leaves_bind leaves_emitChunk (fun _ hrun => hrun) fun _ => ih

lemma leaves_executeStreamFrom {left : ℕ} {wire : HttpRequest} {url : Url}
    (hleft : hop + left = maxRedirects + 1)
    (hwire : authorizeWireRequestForUrl wire scope url = ok ()) :
    Prog.Leaves (AtHop network scope hop transmitted) (ChainContained network scope)
      (executeStreamFrom join network scope scope.maximumResponseBytes (List.range' hop left) wire
        url transmitted) := by
  induction left generalizing hop transmitted wire url with
  | zero =>
    intro run hrun
    exact hrun.contained hleft.le
  | succ left ih =>
    have hstop : ∀ run, AtHop network scope hop transmitted run →
        ChainContained network scope run :=
      fun run hrun => hrun.contained (by omega)
    rw [List.range'_succ, executeStreamFrom]
    refine Prog.leaves_lift_bind hstop fun _ _ => ?_
    refine Prog.leaves_lift_bind hstop fun _ _ => ?_
    refine Prog.leaves_lift_bind hstop fun total htotal => ?_
    refine Prog.leaves_lift_bind hstop fun addresses haddresses => ?_
    obtain ⟨-, hle, hsum⟩ := accountRequestBody_eq_ok.mp htotal
    have hcontained := contained_of_checks hwire haddresses
    refine Prog.leaves_modify_bind (Q := AtHop network scope (hop + 1) total)
      (fun run hrun => hrun.record hcontained hsum (hsum ▸ hle)) ?_
    have hnext : ∀ run, AtHop network scope (hop + 1) total run →
        ChainContained network scope run :=
      fun run hrun => hrun.contained (by omega)
    refine Prog.leaves_bind (leaves_runCallbacks _) hnext fun _ => ?_
    refine Prog.leaves_lift_bind hnext fun response _ => ?_
    refine Prog.leaves_lift_bind hnext fun _ _ => ?_
    split
    · exact fun run hrun => hnext run hrun
    · refine Prog.leaves_lift_bind hnext fun _ _ => ?_
      refine Prog.leaves_lift_bind hnext fun next _ => ?_
      refine Prog.leaves_lift_bind hnext fun _ hauthorized => ?_
      exact ih (by omega) hauthorized

/-- A response that is returned inline is within the limit. -/
lemma body_le_of_executeInnerFrom {limit : ℕ} {counts : List ℕ} {wire : HttpRequest} {url : Url}
    {run run' : HttpRun} {response : HttpResponse}
    (h : executeInnerFrom join network scope limit counts wire url transmitted run =
      (ok response, run')) : response.body.length ≤ limit := by
  induction counts generalizing wire url transmitted run with
  | nil => cases h
  | cons count counts ih =>
    simp only [executeInnerFrom, Prog.bind_eq_ok, Prog.lift_eq_ok] at h
    obtain ⟨_, _, -, _, _, -, _, _, -, _, _, -, _, _, -, answer, _, -, _, _, ⟨hvalid, -⟩, h⟩ := h
    cases hfollow : answer.location.filter fun _ => isRedirect answer.status with
    | none =>
      rw [hfollow] at h
      simp only [validateTransportResponse, bind_eq_ok, rejectIf_eq_ok, decide_eq_false_iff_not,
        not_lt] at hvalid
      obtain ⟨_, -, _, hlength, -⟩ := hvalid
      obtain ⟨rfl, -⟩ := Prog.pure_eq_ok.mp h
      exact hlength
    | some location =>
      rw [hfollow] at h
      simp only [Prog.bind_eq_ok] at h
      obtain ⟨_, _, -, _, _, -, _, _, -, h⟩ := h
      exact ih h

end Containment

/-! ## The two loops side by side -/

/-- A redirect that is not longer than `limit`, as far as the transport looks at its length. -/
def HttpExchange.RedirectFits (limit : ℕ) : HttpExchange → Prop
  | provided answer => ∀ response, answer = ok response → isRedirect response.status = true →
    response.body.length ≤ limit
  | reqwest answer => ∀ response, answer = ok response → isRedirect response.status = true →
    ∀ length, response.contentLength = some (some length) → length ≤ limit

section SideBySide

variable {parse : String → Option Url} {join : Url → String → Option Url} {network : HttpNetwork}
  {scope : HttpRequestScope} {exchange : HttpExchange} {limit maximum : ℕ}
  {response : HttpTransportResponse}

lemma validateTransportResponse_mono (hle : limit ≤ maximum)
    (h : validateTransportResponse response limit = ok ()) :
    validateTransportResponse response maximum = ok () := by
  simp only [validateTransportResponse, bind_eq_ok, rejectIf_eq_ok, decide_eq_false_iff_not,
    not_lt] at h ⊢
  obtain ⟨_, hstatus, _, hlength, _, hencoding, hheaders⟩ := h
  exact ⟨(), hstatus, (), hlength.trans hle, (), hencoding, hheaders⟩

lemma validateTransportResponse_of_length (hlength : response.body.length ≤ limit)
    (h : validateTransportResponse response maximum = ok ()) :
    validateTransportResponse response limit = ok () := by
  simp only [validateTransportResponse, bind_eq_ok, rejectIf_eq_ok, decide_eq_false_iff_not,
    not_lt] at h ⊢
  obtain ⟨_, hstatus, _, -, _, hencoding, hheaders⟩ := h
  exact ⟨(), hstatus, (), hlength, (), hencoding, hheaders⟩

lemma metadata_eq_ok {raw : ReqwestResponse} (h : raw.metadata = ok response) :
    response.status = raw.status ∧ response.body = [] := by
  simp only [ReqwestResponse.metadata, bind_eq_ok, pure_eq, ok.injEq] at h
  obtain ⟨_, -, _, -, _, -, _, -, rfl⟩ := h
  exact ⟨rfl, rfl⟩

lemma checkContentLength_eq_ok {raw : ReqwestResponse} :
    raw.checkContentLength limit = ok () ↔ raw.contentLength ≠ some none ∧
      ∀ length, raw.contentLength = some (some length) → length ≤ limit := by
  rw [ReqwestResponse.checkContentLength]
  cases raw.contentLength with
  | none => simp
  | some length => cases length <;> simp [okOr]

/-- The inline loop follows a redirect: then the transport streams nothing of it. -/
lemma stream_of_send (hle : limit ≤ maximum) (hsend : exchange.send limit = ok response)
    (hvalid : validateTransportResponse response limit = ok ())
    (hredirect : isRedirect response.status = true) :
    exchange.stream maximum = ⟨[.metadata response], ok response⟩ := by
  have hvalid' := validateTransportResponse_mono hle hvalid
  cases exchange with
  | provided answer =>
    obtain rfl : answer = ok response := hsend
    simp only [HttpExchange.stream, providedStream, hvalid', hredirect, if_true]
  | reqwest answer =>
    simp only [HttpExchange.send, ReqwestResponse.send, bind_eq_ok] at hsend
    obtain ⟨raw, rfl, metadata, hmetadata, _, hlength, hbody⟩ := hsend
    have hstatus := (metadata_eq_ok hmetadata).1
    have hraw : isRedirect raw.status = true := by
      split_ifs at hbody with hraw
      · exact hraw
      · simp only [bind_eq_ok, pure_eq, ok.injEq] at hbody
        obtain ⟨_, -, rfl⟩ := hbody
        rw [← hstatus]
        exact hredirect
    rw [if_pos hraw, pure_eq, ok.injEq] at hbody
    subst hbody
    have hmore : raw.checkContentLength maximum = ok () := by
      rw [checkContentLength_eq_ok] at hlength ⊢
      exact ⟨hlength.1, fun length heq => (hlength.2 length heq).trans hle⟩
    simp only [HttpExchange.stream, ReqwestResponse.stream, ReqwestResponse.checkedMetadata,
      hmetadata, hvalid', hmore, ok_bind, pure_eq, hraw, if_true]

/-- The streaming loop follows a redirect: so does the inline loop, unless it is too long. -/
lemma send_of_stream (hfits : exchange.RedirectFits limit)
    (hresult : (exchange.stream maximum).result = ok response)
    (hvalid : validateTransportResponse response maximum = ok ())
    (hredirect : isRedirect response.status = true) :
    exchange.send limit = ok response ∧ validateTransportResponse response limit = ok () := by
  cases exchange with
  | provided answer =>
    cases answer with
    | err code => cases hresult
    | panic => cases hresult
    | ok sent =>
      simp only [HttpExchange.stream, providedStream] at hresult
      cases hsent : validateTransportResponse sent maximum with
      | err code =>
        rw [hsent] at hresult
        cases hresult
      | panic =>
        rw [hsent] at hresult
        cases hresult
      | ok _ =>
        simp only [hsent] at hresult
        split_ifs at hresult with hstatus
        · cases hresult
          have hlength := hfits response rfl hredirect
          exact ⟨rfl, validateTransportResponse_of_length hlength hvalid⟩
        · -- the status is that of the response that was sent
          cases hresult
          exact absurd hredirect hstatus
  | reqwest answer =>
    cases answer with
    | err code => cases hresult
    | panic => cases hresult
    | ok raw =>
      simp only [HttpExchange.stream, ReqwestResponse.stream] at hresult
      cases hchecked : raw.checkedMetadata maximum with
      | err code =>
        rw [hchecked] at hresult
        cases hresult
      | panic =>
        rw [hchecked] at hresult
        cases hresult
      | ok metadata =>
        rw [hchecked] at hresult
        simp only [ReqwestResponse.checkedMetadata, bind_eq_ok, pure_eq, ok.injEq] at hchecked
        obtain ⟨_, hmetadata, _, -, _, hlength, rfl⟩ := hchecked
        obtain ⟨hstatus, hbody⟩ := metadata_eq_ok hmetadata
        split_ifs at hresult with hraw
        · cases hresult
          have hfit : raw.checkContentLength limit = ok () :=
            checkContentLength_eq_ok.mpr
              ⟨(checkContentLength_eq_ok.mp hlength).1, hfits raw rfl hraw⟩
          refine ⟨?_, validateTransportResponse_of_length (by simp [hbody]) hvalid⟩
          simp only [HttpExchange.send, ReqwestResponse.send, ok_bind, hmetadata, hfit, hraw,
            if_true, pure_eq]
        · simp only [map_eq_ok] at hresult
          obtain ⟨_, -, rfl⟩ := hresult
          exact absurd (hstatus ▸ hredirect) hraw

/-- While it streams a transport sends nothing. -/
lemma leaves_sent_emitEvent {Φ : List SentRequest → Prop} {event : HttpStreamEvent} :
    Prog.Leaves (fun run => Φ run.sent) (fun run => Φ run.sent) (emitEvent network event) := by
  refine Prog.leaves_lift_bind (fun _ hrun => hrun) fun _ _ => ?_
  refine Prog.leaves_get_bind fun _ => ?_
  refine Prog.leaves_lift_bind (fun _ hrun => hrun.1) fun _ _ => ?_
  exact Prog.leaves_modify fun _ hrun => hrun.1

lemma leaves_sent_runCallbacks {Φ : List SentRequest → Prop} {currentUrl : String}
    (callbacks : List HttpStreamCallback) :
    Prog.Leaves (fun run => Φ run.sent) (fun run => Φ run.sent)
      (runCallbacks network currentUrl maximum callbacks) := by
  induction callbacks with
  | nil => exact Prog.leaves_pure fun _ hrun => hrun
  | cons callback callbacks ih =>
    cases callback with
    | metadata response =>
      refine Prog.leaves_bind ?_ (fun _ hrun => hrun) fun _ => ih
      rw [emitMetadata]
      split
      · exact leaves_sent_emitEvent
      · exact Prog.leaves_pure fun _ hrun => hrun
    | chunk bytes =>
      refine Prog.leaves_bind ?_ (fun _ hrun => hrun) fun _ => ih
      refine Prog.leaves_get_bind fun _ => ?_
      refine Prog.leaves_lift_bind (fun _ hrun => hrun.1) fun _ _ => ?_
      refine Prog.leaves_modify_bind (Q := fun run => Φ run.sent) (fun _ hrun => hrun.1) ?_
      exact Prog.leaves_lift_bind (fun _ hrun => hrun) fun _ _ => leaves_sent_emitEvent

/-- Requests are only added. -/
lemma leaves_sent_executeStreamFrom {base : List SentRequest} (counts : List ℕ)
    (wire : HttpRequest) (url : Url) (transmitted : ℕ) :
    Prog.Leaves (fun run => base <+: run.sent) (fun run => base <+: run.sent)
      (executeStreamFrom join network scope maximum counts wire url transmitted) := by
  have hstop : ∀ run : HttpRun, base <+: run.sent → base <+: run.sent := fun _ hrun => hrun
  induction counts generalizing wire url transmitted with
  | nil => exact hstop
  | cons count counts ih =>
    rw [executeStreamFrom]
    refine Prog.leaves_lift_bind hstop fun _ _ => ?_
    refine Prog.leaves_lift_bind hstop fun _ _ => ?_
    refine Prog.leaves_lift_bind hstop fun _ _ => ?_
    refine Prog.leaves_lift_bind hstop fun _ _ => ?_
    refine Prog.leaves_modify_bind (Q := fun run => base <+: run.sent)
      (fun _ hrun => hrun.trans (List.prefix_append _ _)) ?_
    refine Prog.leaves_bind (leaves_sent_runCallbacks _) hstop fun _ => ?_
    refine Prog.leaves_lift_bind hstop fun _ _ => ?_
    refine Prog.leaves_lift_bind hstop fun _ _ => ?_
    split
    · exact hstop
    · refine Prog.leaves_lift_bind hstop fun _ _ => ?_
      refine Prog.leaves_lift_bind hstop fun _ _ => ?_
      exact Prog.leaves_lift_bind hstop fun _ _ => ih _ _ _

/-- What the loops have sent when both stand at the same hop. -/
def SameSent (inline streamed : HttpRun) : Prop := inline.sent = streamed.sent

/-- What the inline loop has sent comes first in what the streaming loop has sent, and is all of
it if `fits`. -/
def SentAhead (fits : Prop) (inline streamed : HttpRun) : Prop :=
  inline.sent <+: streamed.sent ∧ (fits → inline.sent = streamed.sent)

lemma SameSent.ahead {fits : Prop} {inline streamed : HttpRun} (h : SameSent inline streamed) :
    SentAhead fits inline streamed :=
  ⟨h ▸ List.prefix_rfl, fun _ => h⟩

/-- A redirect is followed without an event. -/
lemma runCallbacks_followed {currentUrl : String} (hredirect : isRedirect response.status = true)
    {location : String} (hlocation : response.location = some location) :
    runCallbacks network currentUrl maximum [.metadata response] = pure () := by
  rw [runCallbacks, emitMetadata, hredirect, hlocation]
  rfl

lemma pair_loops {fits : Prop} (hle : limit ≤ maximum) (counts : List ℕ)
    (hfits : fits → ∀ count ∈ counts, (network.exchange count).RedirectFits limit)
    (wire : HttpRequest) (url : Url) (transmitted : ℕ) :
    Prog.Pair SameSent (SentAhead fits)
      (executeInnerFrom join network scope limit counts wire url transmitted)
      (executeStreamFrom join network scope maximum counts wire url transmitted) := by
  have hstop : ∀ s t, SameSent s t → SentAhead fits s t := fun _ _ h => h.ahead
  induction counts generalizing wire url transmitted with
  | nil => exact hstop
  | cons count counts ih =>
    rw [executeInnerFrom, executeStreamFrom]
    refine Prog.pair_lift_bind hstop fun _ _ => ?_
    refine Prog.pair_lift_bind hstop fun _ _ => ?_
    refine Prog.pair_lift_bind hstop fun _ _ => ?_
    refine Prog.pair_lift_bind hstop fun _ _ => ?_
    refine Prog.pair_modify_bind (Q := SameSent) ?_ ?_
    · intro s t hst
      exact congrArg (· ++ _) hst
    by_cases hfollowed : ∃ response, (network.exchange count).send limit = ok response ∧
        validateTransportResponse response limit = ok () ∧ isRedirect response.status = true ∧
        ∃ location, response.location = some location
    · -- both loops follow the redirect
      obtain ⟨response, hsend, hvalid, hredirect, location, hlocation⟩ := hfollowed
      have hstream := stream_of_send hle hsend hvalid hredirect
      have hvalid' := validateTransportResponse_mono hle hvalid
      have hfilter : (response.location.filter fun _ => isRedirect response.status) =
          some location := by
        rw [hlocation, hredirect]
        rfl
      rw [hsend, hstream]
      dsimp only
      rw [runCallbacks_followed hredirect hlocation]
      change Prog.Pair SameSent (SentAhead fits)
        (Prog.lift (validateTransportResponse response limit) >>= _)
        (Prog.lift (validateTransportResponse response maximum) >>= _)
      rw [hvalid, hvalid']
      refine Prog.pair_lift_bind hstop fun _ _ => ?_
      rw [hfilter]
      refine Prog.pair_lift_bind hstop fun _ _ => ?_
      refine Prog.pair_lift_bind hstop fun next _ => ?_
      refine Prog.pair_lift_bind hstop fun _ _ => ?_
      exact ih (fun hf other hother => hfits hf other (List.mem_cons_of_mem _ hother)) _ _ _
    · -- the inline loop stops here
      refine Prog.pair_of_stop ?_ fun s => ?_
      · intro s
        cases hsend : (network.exchange count).send limit with
        | err code => rfl
        | panic => rfl
        | ok response =>
          change ((Prog.lift (validateTransportResponse response limit) >>= _) s).2 = s
          cases hvalid : validateTransportResponse response limit with
          | err code => rfl
          | panic => rfl
          | ok _ =>
            cases hfilter : response.location.filter fun _ => isRedirect response.status with
            | none => rfl
            | some location =>
              obtain ⟨hlocation, hredirect⟩ := Option.filter_eq_some_iff.mp hfilter
              exact absurd ⟨response, hsend, hvalid, hredirect, location, hlocation⟩ hfollowed
      · refine Prog.leaves_bind (leaves_sent_runCallbacks (Φ := fun sent => s.sent = sent) _)
          (hstop s) fun _ => ?_
        refine Prog.leaves_lift_bind (hstop s) fun response hresult => ?_
        refine Prog.leaves_lift_bind (hstop s) fun _ hvalid => ?_
        cases hfilter : response.location.filter fun _ => isRedirect response.status with
        | none => exact hstop s
        | some location =>
          by_cases hf : fits
          · exfalso
            obtain ⟨hlocation, hredirect⟩ := Option.filter_eq_some_iff.mp hfilter
            obtain ⟨hsend, hvalid'⟩ := send_of_stream (hfits hf count List.mem_cons_self) hresult
              hvalid hredirect
            exact hfollowed ⟨response, hsend, hvalid', hredirect, location, hlocation⟩
          · refine Prog.leaves_lift_bind (hstop s) fun _ _ => ?_
            refine Prog.leaves_lift_bind (hstop s) fun next _ => ?_
            refine Prog.leaves_lift_bind (hstop s) fun _ _ => ?_
            intro t ht
            refine ⟨leaves_sent_executeStreamFrom _ _ _ _ t ?_, fun h => absurd h hf⟩
            exact ht ▸ List.prefix_rfl

lemma pair_executeInner (wire : HttpRequest) {fits : Prop}
    (hfits : fits → ∀ hop ≤ maxRedirects, (network.exchange hop).RedirectFits
      (min scope.maximumResponseBytes maxHttpInlineBodyBytes)) (url : Url) :
    Prog.Pair SameSent (SentAhead fits)
      (executeInnerFrom join network scope (min scope.maximumResponseBytes maxHttpInlineBodyBytes)
        (List.range (maxRedirects + 1)) wire url 0)
      (executeStreamFrom join network scope scope.maximumResponseBytes
        (List.range (maxRedirects + 1)) wire url 0) := by
  refine pair_loops (min_le_left _ _) _ (fun hf count hcount => hfits hf count ?_) wire url 0
  exact Nat.lt_succ_iff.mp (List.mem_range.mp hcount)

end SideBySide

/-! ## Both operations -/

/-- Nothing was sent yet. -/
def HttpRun.start : HttpRun := ⟨[], [], 0⟩

/-- The request for one of the operations, under a scope. -/
def BackendRequest.forHttp (request : BackendRequest) (operation : String)
    (scope : HttpRequestScope) : BackendRequest :=
  { request with operation, authorizedScope := .httpRequest scope }

section Operations

variable (parse : String → Option Url) (join : Url → String → Option Url) (network : HttpNetwork)
  (scope : HttpRequestScope) (request : BackendRequest)

def inlineRun : Outcome BrokerErrorCode HttpResponse × HttpRun :=
  executeInner parse join network (request.forHttp httpRequestOperation scope) .start

def streamedRun : Outcome BrokerErrorCode ℕ × HttpRun :=
  openHttpStream parse join network (request.forHttp httpStreamOperation scope) .start

variable {parse join network scope request}

lemma atHop_start : AtHop network scope 0 0 .start where
  requests := by
    intro hop sent hsent
    cases hsent
  count := rfl
  uploaded := rfl
  transmitted_le := Nat.zero_le _
  downloaded := le_rfl
  downloaded_le := Nat.zero_le _

/-- The two operations decode the same request. -/
lemma decodeHttpRequest_forHttp :
    decodeHttpRequest (request.forHttp httpRequestOperation scope) httpRequestOperation =
      decodeHttpRequest (request.forHttp httpStreamOperation scope) httpStreamOperation := by
  simp only [decodeHttpRequest, BackendRequest.forHttp, ne_eq, not_true_eq_false, decide_false,
    Bool.or_false]
  rfl

lemma decodeHttpRequest_scope {operation : String} {wire : HttpRequest}
    {decoded : HttpRequestScope}
    (h : decodeHttpRequest (request.forHttp operation scope) operation = ok (wire, decoded)) :
    decoded = scope := by
  simp only [decodeHttpRequest, BackendRequest.forHttp, bind_eq_ok, pure_eq, ok.injEq,
    Prod.mk.injEq] at h
  obtain ⟨_, -, _, -, -, rfl⟩ := h
  rfl

lemma authorized_of_authorizeWireRequest {wire : HttpRequest} {url : Url}
    (h : authorizeWireRequest parse wire scope = ok url) :
    authorizeWireRequestForUrl wire scope url = ok () := by
  simp only [authorizeWireRequest, bind_eq_ok, pure_eq, ok.injEq] at h
  obtain ⟨_, -, _, hauthorized, rfl⟩ := h
  exact hauthorized

lemma contained_inlineRun :
    ChainContained network scope (inlineRun parse join network scope request).2 := by
  have hstop : ∀ run, AtHop network scope 0 0 run → ChainContained network scope run :=
    fun run hrun => hrun.contained (Nat.zero_le _)
  refine Prog.leaves_lift_bind (P := AtHop network scope 0 0) hstop ?_ _ atHop_start
  rintro ⟨wire, decoded⟩ hdecoded
  obtain rfl := decodeHttpRequest_scope hdecoded
  refine Prog.leaves_lift_bind hstop fun url hurl => ?_
  rw [List.range_eq_range']
  exact leaves_executeInnerFrom _ (by omega) (authorized_of_authorizeWireRequest hurl)

lemma contained_streamedRun :
    ChainContained network scope (streamedRun parse join network scope request).2 := by
  have hstop : ∀ run, AtHop network scope 0 0 run → ChainContained network scope run :=
    fun run hrun => hrun.contained (Nat.zero_le _)
  refine Prog.leaves_lift_bind (P := AtHop network scope 0 0) hstop ?_ _ atHop_start
  rintro ⟨wire, decoded⟩ hdecoded
  obtain rfl := decodeHttpRequest_scope hdecoded
  refine Prog.leaves_lift_bind hstop fun url hurl => ?_
  rw [List.range_eq_range']
  exact leaves_executeStreamFrom (by omega) (authorized_of_authorizeWireRequest hurl)

lemma body_le_of_inlineRun {response : HttpResponse}
    (h : (inlineRun parse join network scope request).1 = ok response) :
    response.body.length ≤ scope.maximumResponseBytes := by
  have hrun : executeInner parse join network (request.forHttp httpRequestOperation scope) .start =
      (ok response, (inlineRun parse join network scope request).2) := by
    rw [← h]
    rfl
  simp only [executeInner, Prog.bind_eq_ok, Prog.lift_eq_ok] at hrun
  obtain ⟨⟨wire, decoded⟩, _, ⟨hdecoded, -⟩, url, _, -, hloop⟩ := hrun
  obtain rfl := decodeHttpRequest_scope hdecoded
  exact (body_le_of_executeInnerFrom hloop).trans (min_le_left _ _)

/-- Both loops, over any sequence of answers: each request that is sent passes the checks of
its hop and goes only to allowed addresses of its host, there are at most `maxRedirects + 1`,
and the bodies that are sent and the bytes that are delivered stay within the scope.  The inline
loop sends what the streaming loop sends first; it sends all of it where no redirect is longer
than what may be returned inline. -/
theorem redirects_contained (parse : String → Option Url) (join : Url → String → Option Url)
    (network : HttpNetwork) (scope : HttpRequestScope) (request : BackendRequest) :
    ChainContained network scope (inlineRun parse join network scope request).2 ∧
    (∀ response, (inlineRun parse join network scope request).1 = ok response →
      response.body.length ≤ scope.maximumResponseBytes) ∧
    ChainContained network scope (streamedRun parse join network scope request).2 ∧
    (inlineRun parse join network scope request).2.sent <+:
      (streamedRun parse join network scope request).2.sent ∧
    ((∀ hop ≤ maxRedirects, (network.exchange hop).RedirectFits
        (min scope.maximumResponseBytes maxHttpInlineBodyBytes)) →
      (inlineRun parse join network scope request).2.sent =
        (streamedRun parse join network scope request).2.sent) := by
  have hahead : SentAhead
      (∀ hop ≤ maxRedirects, (network.exchange hop).RedirectFits
        (min scope.maximumResponseBytes maxHttpInlineBodyBytes))
      (inlineRun parse join network scope request).2
      (streamedRun parse join network scope request).2 := by
    have hstop : ∀ s t, SameSent s t → SentAhead
        (∀ hop ≤ maxRedirects, (network.exchange hop).RedirectFits
          (min scope.maximumResponseBytes maxHttpInlineBodyBytes)) s t := fun _ _ h => h.ahead
    rw [inlineRun, streamedRun, executeInner, openHttpStream, decodeHttpRequest_forHttp]
    refine Prog.pair_lift_bind (P := SameSent) hstop ?_ _ _ rfl
    rintro ⟨wire, decoded⟩ hdecoded
    obtain rfl := decodeHttpRequest_scope hdecoded
    refine Prog.pair_lift_bind hstop fun url _ => ?_
    exact pair_executeInner wire id url
  exact ⟨contained_inlineRun, fun _ => body_le_of_inlineRun, contained_streamedRun, hahead.1,
    hahead.2⟩

/-- A server that redirects once, with a body of 60000 bytes that is not read. -/
def longRedirect : HttpNetwork where
  resolve _ _ port := ok [SocketAddr.new (.v4 ⟨93, 184, 215, 14⟩) port]
  exchange
    | 0 => .reqwest
      (ok ⟨302, some (some "/v1/other"), none, none, none, some (some 60000), [], none⟩)
    | _ => .reqwest (ok ⟨200, none, none, none, none, some (some 2), [[111, 107]], none⟩)
  reason _ _ := none
  emitBuffered _ := ok ()

def apiPost : BackendRequest where
  capability := .httpRequestV1
  authorizedScope := .httpRequest (apiScope ["/v1/"] false 16)
  activation := none
  operation := httpRequestOperation
  payload := HttpRequest.magic ++ [httpMethodCode apiRequest.method] ++
    Encoder.text apiRequest.url ++ Encoder.optionalBytes Encoder.text apiRequest.accept ++
    Encoder.optionalBytes Encoder.text apiRequest.contentType ++ Encoder.payload apiRequest.body

/-- The streaming loop follows the redirect, the inline loop does not. -/
theorem redirects_contained_longRedirect :
    (inlineRun (fun _ => some apiUrl) (fun _ _ => some apiUrl) longRedirect
      (apiScope ["/v1/"] false 16) apiPost).2.sent ≠
    (streamedRun (fun _ => some apiUrl) (fun _ _ => some apiUrl) longRedirect
      (apiScope ["/v1/"] false 16) apiPost).2.sent := by
  have hinline : (inlineRun (fun _ => some apiUrl) (fun _ _ => some apiUrl) longRedirect
      (apiScope ["/v1/"] false 16) apiPost).2.sent.length = 1 := by
    decide
  have hstreamed : (streamedRun (fun _ => some apiUrl) (fun _ _ => some apiUrl) longRedirect
      (apiScope ["/v1/"] false 16) apiPost).2.sent.length = 2 := by
    decide
  intro heq
  rw [heq, hstreamed] at hinline
  cases hinline

end Operations

end TouchBar.Supervisor

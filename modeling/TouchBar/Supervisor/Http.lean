import TouchBar.Supervisor.Request

/-!
# HTTP requests

The broker of `http.request.v1` checks a request and its URL against the scope,
resolves the host and checks every address, and counts the bytes it sends.  Every
check passes under a wider scope if it passes under a narrower one.
-/

namespace TouchBar.Supervisor

open TouchBar.Rust TouchBar.Lib TouchBar.Policy TouchBar.Schema Outcome
open TouchBar.Rust.Net

def maxSafeHeaderBytes : ℕ := 4096

/-- The bytes sent so far, after another body; an error ends the request, so that the
counter matters only where there is none. -/
def accountRequestBody (transmitted nextBodyBytes maximumRequestBytes : ℕ) :
    Outcome BrokerErrorCode ℕ := do
  let transmitted ← okOr (U64.add transmitted nextBodyBytes) .quotaExceeded
  rejectIf (maximumRequestBytes < transmitted) .quotaExceeded
  return transmitted

/-! ## Requests and URLs -/

def validateHeaderValue (value : String) : Outcome BrokerErrorCode Unit :=
  rejectIf (Text.isEmpty value || maxSafeHeaderBytes < Text.len value ||
    Text.any value (fun c => c.toNat < 0x20 || c.toNat == 0x7f)) .invalidRequest

def policyMethod : HttpRequestMethod → HttpMethod
  | .get => .get
  | .head => .head
  | .post => .post
  | .put => .put
  | .patch => .patch
  | .delete => .delete

def canonicalUrlHost (url : Url) : Option String := url.host.map Host.display

def authorizeUrl (scope : HttpRequestScope) (method : HttpRequestMethod) (url : Url) :
    Outcome BrokerErrorCode Unit := do
  rejectIf (!scope.methods.contains (policyMethod method)) .outOfScope
  rejectIf (!Text.isEmpty url.username || url.password.isSome || url.fragment.isSome ||
    url.cannotBeABase || url.host.isNone || Text.containsChar url.asStr '\\' ||
    dangerousEncodedPath url.path) .invalidRequest
  rejectIf (url.scheme ≠ "http" && url.scheme ≠ "https") .outOfScope
  let host ← okOr (canonicalUrlHost url) .invalidRequest
  let port ← okOr url.portOrKnownDefault .invalidRequest
  rejectIf (!scope.origins.toList.any (originAllows url host port)) .outOfScope

def authorizeWireRequestForUrl (request : HttpRequest) (scope : HttpRequestScope) (url : Url) :
    Outcome BrokerErrorCode Unit := do
  rejectIf (scope.maximumRequestBytes < request.body.length) .quotaExceeded
  rejectIf ((request.method = .get || request.method = .head) &&
    (!request.body.isEmpty || request.contentType.isSome)) .invalidRequest
  [request.accept, request.contentType].reduceOption.forM validateHeaderValue
  authorizeUrl scope request.method url

/-! ## Addresses -/

def ipv4Allowed (address : Ipv4Addr) (privateNetwork : Bool) : Bool :=
  let alwaysForbidden := address.isUnspecified || address.isMulticast ||
    address = .broadcast || address.a == 0 || 240 ≤ address.a
  let nonPublic := address.isPrivate || address.isLoopback || address.isLinkLocal ||
    (address.a == 100 && 64 ≤ address.b && address.b ≤ 127) ||
    (address.a == 192 && address.b == 0 && address.c == 0) ||
    (address.a == 192 && address.b == 0 && address.c == 2) ||
    (address.a == 198 && (address.b == 18 || address.b == 19)) ||
    (address.a == 198 && address.b == 51 && address.c == 100) ||
    (address.a == 203 && address.b == 0 && address.c == 113)
  !alwaysForbidden && (!nonPublic || privateNetwork)

def ipv6Allowed (address : Ipv6Addr) (privateNetwork : Bool) : Bool :=
  if address.isUnspecified || address.isMulticast then false
  else if address.isLoopback then privateNetwork
  else if (address.segments.take 6).all (· == 0) then
    ipv4Allowed (.ofSegments address.s₆ address.s₇) privateNetwork
  else if address.s₀ == 0x0064 && address.s₁ == 0xff9b &&
      ((address.segments.take 6).drop 2).all (· == 0) then
    ipv4Allowed (.ofSegments address.s₆ address.s₇) privateNetwork
  else if address.s₀ == 0x2002 then
    ipv4Allowed (.ofSegments address.s₁ address.s₂) privateNetwork
  else
    let nonPublic := address.isLoopback || address.s₀ &&& 0xfe00 == 0xfc00 ||
      address.s₀ &&& 0xffc0 == 0xfe80 || address.s₀ &&& 0xffc0 == 0xfec0 ||
      (address.s₀ == 0x0064 && address.s₁ == 0xff9b && address.s₂ == 1) ||
      (address.s₀ == 0x2001 && address.s₁ == 0x0db8) ||
      (address.s₀ == 0x0100 && (address.segments.drop 1).all (· == 0))
    !nonPublic || privateNetwork

def addressAllowed (address : IpAddr) (privateNetwork : Bool) : Bool :=
  match address with
  | .v4 address => ipv4Allowed address privateNetwork
  | .v6 address =>
    match address.toIpv4Mapped with
    | some mapped => ipv4Allowed mapped privateNetwork
    | none => ipv6Allowed address privateNetwork

/-- `if let Some(reason) = cancellation.reason() { return Err(reason) }`. -/
def rejectCancelled (reason : Option BrokerErrorCode) : Outcome BrokerErrorCode Unit :=
  match reason with
  | some reason => err reason
  | none => ok ()

section

variable (resolve : String → ℕ → Outcome BrokerErrorCode (List SocketAddr))

/-- The addresses of a host before they are checked: only names are resolved. -/
def hostAddresses (host : Host) (port : ℕ) : Outcome BrokerErrorCode (List SocketAddr) :=
  match host with
  | .ipv4 address => ok [SocketAddr.new (.v4 address) port]
  | .ipv6 address => ok [SocketAddr.new (.v6 address) port]
  | .domain name => resolve name port

/-- `resolve_and_validate`.  The token is read twice, before and after the host is resolved. -/
def resolveAndValidate (url : Url) (privateNetwork : Bool)
    (reasonBefore reasonAfter : Option BrokerErrorCode) :
    Outcome BrokerErrorCode (List SocketAddr) := do
  rejectCancelled reasonBefore
  let port ← okOr url.portOrKnownDefault .invalidRequest
  let host ← okOr url.host .invalidRequest
  let resolved ← hostAddresses resolve host port
  rejectCancelled reasonAfter
  let addresses := (resolved.insertionSort (· ≤ ·)).eraseReps
  rejectIf (addresses.isEmpty || addresses.any fun address =>
    address.port ≠ port || !addressAllowed address.ip privateNetwork) .outOfScope
  return addresses

end

/-! ## Wider scopes -/

section Addresses

variable {new old : Bool} (h : boolAuthoritySubset new old = true)

include h

/-- Private networks only add addresses. -/
lemma ipv4Allowed_mono {address : Ipv4Addr} (ha : ipv4Allowed address new = true) :
    ipv4Allowed address old = true := by
  simp only [ipv4Allowed, Bool.and_eq_true] at ha ⊢
  refine ⟨ha.1, ?_⟩
  rw [Bool.or_eq_true] at ha ⊢
  exact ha.2.imp id (boolAuthoritySubset_iff.mp h)

lemma ipv6Allowed_mono {address : Ipv6Addr} (ha : ipv6Allowed address new = true) :
    ipv6Allowed address old = true := by
  have hprivate := boolAuthoritySubset_iff.mp h
  rw [ipv6Allowed] at ha ⊢
  split_ifs at ha ⊢
  · exact hprivate ha
  · exact ipv4Allowed_mono h ha
  · exact ipv4Allowed_mono h ha
  · exact ipv4Allowed_mono h ha
  · rw [Bool.or_eq_true] at ha ⊢
    exact ha.imp id hprivate

lemma addressAllowed_mono {address : IpAddr} (ha : addressAllowed address new = true) :
    addressAllowed address old = true := by
  cases address with
  | v4 address => exact ipv4Allowed_mono h ha
  | v6 address =>
    rw [addressAllowed] at ha ⊢
    cases hmapped : address.toIpv4Mapped with
    | some mapped =>
      rw [hmapped] at ha
      exact ipv4Allowed_mono h ha
    | none =>
      rw [hmapped] at ha
      exact ipv6Allowed_mono h ha

lemma resolveAndValidate_mono
    {resolve : String → ℕ → Outcome BrokerErrorCode (List SocketAddr)} {url : Url}
    {reasonBefore reasonAfter : Option BrokerErrorCode} {addresses : List SocketAddr}
    (ha : resolveAndValidate resolve url new reasonBefore reasonAfter = ok addresses) :
    resolveAndValidate resolve url old reasonBefore reasonAfter = ok addresses := by
  simp only [resolveAndValidate, bind_eq_ok, rejectIf_eq_ok, pure_eq, ok.injEq,
    Bool.or_eq_false_iff, List.any_eq_false] at ha ⊢
  obtain ⟨_, hbefore, port, hport, host, hhost, resolved, hresolved, _, hafter, _,
    ⟨hnonempty, hall⟩, haddresses⟩ := ha
  refine ⟨_, hbefore, port, hport, host, hhost, resolved, hresolved, _, hafter, (),
    ⟨hnonempty, fun address hmem => ?_⟩, haddresses⟩
  have hone := hall address hmem
  simp only [Bool.or_eq_true, decide_eq_true_eq, Bool.not_eq_true', not_or, Bool.not_eq_false]
    at hone ⊢
  exact ⟨hone.1, addressAllowed_mono h hone.2⟩

end Addresses

variable {new old : HttpRequestScope}

lemma authorizeUrl_of_subset {method : HttpRequestMethod} {url : Url}
    (hmethods : new.methods.isSubset old.methods = true)
    (horigins : originsSubset new.origins old.origins = true)
    (h : authorizeUrl new method url = ok ()) : authorizeUrl old method url = ok () := by
  simp only [authorizeUrl, bind_eq_ok, rejectIf_eq_ok, Bool.not_eq_false',
    BTreeSet.contains_iff] at h ⊢
  obtain ⟨_, hmethod, _, hplain, _, hscheme, host, hhost, port, hport, hany⟩ := h
  exact ⟨(), BTreeSet.isSubset_iff.mp hmethods _ hmethod, (), hplain, (), hscheme, host, hhost,
    port, hport, any_originAllows_of_subset horigins hany⟩

lemma authorizeWireRequestForUrl_of_subset {request : HttpRequest} {url : Url}
    (hmethods : new.methods.isSubset old.methods = true)
    (horigins : originsSubset new.origins old.origins = true)
    (hbytes : new.maximumRequestBytes ≤ old.maximumRequestBytes)
    (h : authorizeWireRequestForUrl request new url = ok ()) :
    authorizeWireRequestForUrl request old url = ok () := by
  simp only [authorizeWireRequestForUrl, bind_eq_ok, rejectIf_eq_ok,
    decide_eq_false_iff_not, not_lt] at h ⊢
  obtain ⟨_, hlength, _, hbody, _, hheaders, hurl⟩ := h
  exact ⟨(), hlength.trans hbytes, (), hbody, (), hheaders,
    authorizeUrl_of_subset hmethods horigins hurl⟩

lemma accountRequestBody_mono {transmitted next new old total : ℕ} (hbytes : new ≤ old)
    (h : accountRequestBody transmitted next new = ok total) :
    accountRequestBody transmitted next old = ok total := by
  simp only [accountRequestBody, bind_eq_ok, okOr_eq_ok, rejectIf_eq_ok, pure_eq, ok.injEq,
    decide_eq_false_iff_not, not_lt] at h ⊢
  obtain ⟨sum, hsum, _, hle, htotal⟩ := h
  exact ⟨sum, hsum, (), hle.trans hbytes, htotal⟩

/-- What a narrower scope admits, the wider one does: requests with their URLs, the
addresses of a host, and the bodies sent so far. -/
theorem httpRequest_narrowed
    (h : (CapabilityScope.httpRequest new).isSubsetOf (.httpRequest old) = true) :
    (∀ request url, authorizeWireRequestForUrl request new url = ok () →
      authorizeWireRequestForUrl request old url = ok ()) ∧
    (∀ resolve url reasonBefore reasonAfter addresses,
      resolveAndValidate resolve url new.privateNetwork reasonBefore reasonAfter = ok addresses →
      resolveAndValidate resolve url old.privateNetwork reasonBefore reasonAfter = ok addresses) ∧
    ∀ transmitted nextBodyBytes total,
      accountRequestBody transmitted nextBodyBytes new.maximumRequestBytes = ok total →
      accountRequestBody transmitted nextBodyBytes old.maximumRequestBytes = ok total := by
  simp only [CapabilityScope.isSubsetOf, Bool.and_eq_true, decide_eq_true_eq] at h
  obtain ⟨⟨⟨⟨⟨hmethods, hprivate⟩, hbytes⟩, -⟩, -⟩, horigins⟩ := h
  refine ⟨fun _ _ => authorizeWireRequestForUrl_of_subset hmethods horigins hbytes,
    fun _ _ _ _ _ => resolveAndValidate_mono hprivate, fun _ _ _ => accountRequestBody_mono hbytes⟩

/-- Requests to one host, below prefixes of the path. -/
def apiScope (prefixes : List String) (privateNetwork : Bool) (maximumRequestBytes : ℕ) :
    HttpRequestScope where
  origins := .ofList [⟨"https", "api.example.com", 443, .ofList prefixes⟩]
  methods := .ofList [.get, .post]
  privateNetwork := privateNetwork
  maximumRequestBytes := maximumRequestBytes
  maximumResponseBytes := 65536
  maximumRequestsPerMinute := 60

/-- To post three bytes. -/
def apiRequest : HttpRequest :=
  ⟨.post, "https://api.example.com/v1/items", none, some "text/plain", [1, 2, 3]⟩

def apiUrl : Url where
  asStr := "https://api.example.com/v1/items"
  scheme := "https"
  username := ""
  password := none
  cannotBeABase := false
  host := some (.domain "api.example.com")
  portOrKnownDefault := some 443
  path := "/v1/items"
  fragment := none

/-- The prefix `/v1/` lies below no prefix at all. -/
theorem httpRequest_narrowed_apiScope :
    authorizeWireRequestForUrl apiRequest (apiScope ["/v1/"] false 16) apiUrl = ok () ∧
      authorizeWireRequestForUrl apiRequest (apiScope [] true 64) apiUrl = ok () := by
  have haccepted : authorizeWireRequestForUrl apiRequest (apiScope ["/v1/"] false 16) apiUrl =
      ok () := by
    decide
  have hsub : (CapabilityScope.httpRequest (apiScope ["/v1/"] false 16)).isSubsetOf
      (.httpRequest (apiScope [] true 64)) = true := by
    decide
  exact ⟨haccepted, (httpRequest_narrowed hsub).1 _ _ haccepted⟩

end TouchBar.Supervisor

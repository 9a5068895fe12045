import TouchBar.Supervisor.Request

/-!
# Opening URIs

The broker of `uri.open.v1` checks the scheme of a URI and, for web URIs, its
origin.  An empty set of origins admits every web origin, and only then addresses
for mail; but the comparison of scopes takes it as the smallest set.
-/

namespace TouchBar.Supervisor

open TouchBar.Rust TouchBar.Lib TouchBar.Policy TouchBar.Schema Outcome

def uriOpenOperation : String := "open"

def authorizeWebUri (scope : UriOpenScope) (uri : Url) : Outcome BrokerErrorCode Unit := do
  rejectIf (!Text.isEmpty uri.username || uri.password.isSome || uri.cannotBeABase ||
    uri.host.isNone || Text.containsChar uri.asStr '\\' || dangerousEncodedPath uri.path)
    .invalidRequest
  if scope.origins.isEmpty then
    ok ()
  else
    let host ← okOr uri.host .invalidRequest
    let port ← okOr uri.portOrKnownDefault .invalidRequest
    rejectIf (!scope.origins.toList.any (originAllows uri host.display port)) .outOfScope

/-- The checks of `authorize_uri` after the URI has been parsed; `text` is the URI as it was
sent. -/
def authorizeParsedUri (scope : UriOpenScope) (text : String) (uri : Url) :
    Outcome BrokerErrorCode Unit := do
  rejectIf (!scope.schemes.contains uri.scheme) .outOfScope
  if uri.scheme = "http" ∨ uri.scheme = "https" then
    authorizeWebUri scope uri
  else if uri.scheme = "mailto" then
    rejectIf (!scope.origins.isEmpty || !uri.cannotBeABase ||
      Text.any text (fun c => c.toNat < 0x20 || c.toNat == 0x7f)) .invalidRequest
  else
    err .unsupported

section

variable (parse : String → Option Url)

/-- `authorize_uri`; `parse` is `Url::parse`. -/
def authorizeUri (request : BackendRequest) : Outcome BrokerErrorCode Url := do
  rejectIf (request.capability ≠ .uriOpenV1 || request.operation ≠ uriOpenOperation)
    .invalidRequest
  let wire ← mapSchemaError (UriOpenRequest.decode request.payload)
  match request.authorizedScope with
  | .uriOpen scope =>
    let uri ← okOr (parse wire.uri) .invalidRequest
    authorizeParsedUri scope wire.uri uri
    return uri
  | _ => err .invalidRequest

/-- `UriOpenBackend::authorize`: every opening consumes an activation. -/
def authorizeUriOpen (request : BackendRequest) (ledger : ActivationLedger) (now : ℕ) :
    Outcome BrokerErrorCode ActivationLedger := do
  let _ ← authorizeUri parse request
  request.consumeActivation ledger now

end

/-! ## Narrower scopes -/

variable {parse : String → Option Url} {new old : UriOpenScope}

/-- Whether a scope admits a URI. -/
def UriAccepted (parse : String → Option Url) (scope : UriOpenScope) (request : BackendRequest) :
    Prop :=
  ∃ uri, authorizeUri parse { request with authorizedScope := .uriOpen scope } = ok uri

lemma uriAccepted_iff {scope : UriOpenScope} {request : BackendRequest} :
    UriAccepted parse scope request ↔
      request.capability = .uriOpenV1 ∧ request.operation = uriOpenOperation ∧
        ∃ wire uri, UriOpenRequest.decode request.payload = ok wire ∧ parse wire.uri = some uri ∧
          authorizeParsedUri scope wire.uri uri = ok () := by
  simp only [UriAccepted, authorizeUri, bind_eq_ok, rejectIf_eq_ok, mapSchemaError_eq_ok,
    okOr_eq_ok, pure_eq, ok.injEq, Bool.or_eq_false_iff, decide_eq_false_iff_not, not_not]
  constructor
  · rintro ⟨_, _, ⟨hcap, hop⟩, wire, hwire, uri, huri, _, hauth, rfl⟩
    exact ⟨hcap, hop, wire, _, hwire, huri, hauth⟩
  · rintro ⟨hcap, hop, wire, uri, hwire, huri, hauth⟩
    exact ⟨uri, (), ⟨hcap, hop⟩, wire, hwire, uri, huri, (), hauth, rfl⟩

lemma authorizeWebUri_eq_ok {scope : UriOpenScope} {uri : Url} :
    authorizeWebUri scope uri = ok () ↔
      (!Text.isEmpty uri.username || uri.password.isSome || uri.cannotBeABase ||
        uri.host.isNone || Text.containsChar uri.asStr '\\' ||
        dangerousEncodedPath uri.path) = false ∧
      (scope.origins.isEmpty = true ∨ ∃ host port, uri.host = some host ∧
        uri.portOrKnownDefault = some port ∧
        scope.origins.toList.any (originAllows uri host.display port) = true) := by
  simp only [authorizeWebUri, bind_eq_ok, rejectIf_eq_ok, exists_and_left, exists_const]
  refine and_congr_right fun _ => ?_
  cases scope.origins.isEmpty with
  | true => simp
  | false => simp

lemma authorizeParsedUri_eq_ok {scope : UriOpenScope} {text : String} {uri : Url} :
    authorizeParsedUri scope text uri = ok () ↔
      uri.scheme ∈ scope.schemes ∧
      (((uri.scheme = "http" ∨ uri.scheme = "https") ∧ authorizeWebUri scope uri = ok ()) ∨
      (uri.scheme = "mailto" ∧ scope.origins.isEmpty = true ∧ uri.cannotBeABase = true ∧
        Text.any text (fun c => c.toNat < 0x20 || c.toNat == 0x7f) = false)) := by
  simp only [authorizeParsedUri, bind_eq_ok, rejectIf_eq_ok, Bool.not_eq_false',
    BTreeSet.contains_iff, exists_and_left, exists_const]
  refine and_congr_right fun _ => ?_
  by_cases hweb : uri.scheme = "http" ∨ uri.scheme = "https"
  · have hmail : uri.scheme ≠ "mailto" := by
      rcases hweb with h | h <;> rw [h] <;> decide
    simp [hweb, hmail]
  · by_cases hmail : uri.scheme = "mailto"
    · simp [hmail, and_assoc]
    · simp [hweb, hmail]

/-- With the origins empty on both sides or on neither, a narrower scope admits less. -/
lemma authorizeParsedUri_of_subset {text : String} {uri : Url}
    (hsub : (CapabilityScope.uriOpen new).isSubsetOf (.uriOpen old) = true)
    (hempty : new.origins.isEmpty = true → old.origins.isEmpty = true)
    (h : authorizeParsedUri new text uri = ok ()) : authorizeParsedUri old text uri = ok () := by
  simp only [CapabilityScope.isSubsetOf, Bool.and_eq_true] at hsub
  obtain ⟨hschemes, horigins⟩ := hsub
  rw [authorizeParsedUri_eq_ok] at h ⊢
  obtain ⟨hscheme, h⟩ := h
  refine ⟨BTreeSet.isSubset_iff.mp hschemes _ hscheme, ?_⟩
  rcases h with ⟨hweb, h⟩ | ⟨hmail, hnone, hrest⟩
  · refine .inl ⟨hweb, ?_⟩
    rw [authorizeWebUri_eq_ok] at h ⊢
    obtain ⟨hplain, hnone | ⟨host, port, hhost, hport, hany⟩⟩ := h
    · exact ⟨hplain, .inl (hempty hnone)⟩
    · exact ⟨hplain, .inr ⟨host, port, hhost, hport, any_originAllows_of_subset horigins hany⟩⟩
  · exact .inr ⟨hmail, hempty hnone, hrest⟩

/-! ## URIs that a scope with origins does not admit -/

/-- A web URI whose host no origin rule can name, since a valid host has no underscore. -/
def unlistedWebUri (scheme : String) (port : ℕ) : Url where
  asStr := scheme ++ "://a_b/"
  scheme := scheme
  username := ""
  password := none
  cannotBeABase := false
  host := some (.domain "a_b")
  portOrKnownDefault := some port
  path := "/"
  fragment := none

def mailUri : Url where
  asStr := "mailto:a@b"
  scheme := "mailto"
  username := ""
  password := none
  cannotBeABase := true
  host := none
  portOrKnownDefault := none
  path := "a@b"
  fragment := none

/-- What the parser of the `url` crate makes of three URIs. -/
structure ParsesStandardUris (parse : String → Option Url) : Prop where
  http : parse "http://a_b/" = some (unlistedWebUri "http" 80)
  https : parse "https://a_b/" = some (unlistedWebUri "https" 443)
  mailto : parse "mailto:a@b" = some mailUri

/-- The request to open a URI. -/
def openRequest (uri : String) : BackendRequest where
  capability := .uriOpenV1
  authorizedScope := .uriOpen ⟨.empty, .empty⟩
  activation := none
  operation := uriOpenOperation
  payload :=
    match UriOpenRequest.encode ⟨uri⟩ with
    | ok bytes => bytes
    | _ => []

lemma uriAccepted_openRequest {scope : UriOpenScope} {text : String} {uri : Url}
    (hdecode : UriOpenRequest.decode (openRequest text).payload = ok ⟨text⟩)
    (hparse : parse text = some uri) :
    UriAccepted parse scope (openRequest text) ↔ authorizeParsedUri scope text uri = ok () := by
  rw [uriAccepted_iff]
  constructor
  · rintro ⟨-, -, wire, uri', hwire, huri, hauth⟩
    obtain rfl := Outcome.ok.inj (hdecode.symm.trans hwire)
    obtain rfl := Option.some.inj (hparse.symm.trans huri)
    exact hauth
  · intro hauth
    exact ⟨rfl, rfl, ⟨text⟩, uri, hdecode, hparse, hauth⟩

/-- A valid scope with origins rejects the unlisted host. -/
lemma not_authorizeWebUri_unlisted {scheme : String} {port : ℕ}
    (hvalid : validateCapabilityScope .uriOpenV1 (.uriOpen old) = ok ())
    (hold : old.origins.isEmpty = false) :
    authorizeWebUri old (unlistedWebUri scheme port) ≠ ok () := by
  intro h
  obtain ⟨-, hnone | ⟨host, port', hhost, -, hany⟩⟩ := authorizeWebUri_eq_ok.mp h
  · rw [hold] at hnone
    cases hnone
  · obtain rfl := Option.some.inj hhost
    rw [List.any_eq_true] at hany
    obtain ⟨origin, horigin, hallows⟩ := hany
    simp only [originAllows, Host.display, Bool.and_eq_true, decide_eq_true_eq] at hallows
    have hcanonical := host_of_validate hvalid origin horigin
    rw [of_decide_eq_true hallows.1.1.2] at hcanonical
    exact absurd hcanonical (by decide)

/-- A scope without origins admits the unlisted host. -/
lemma authorizeParsedUri_unlisted {scheme text : String} {port : ℕ}
    (hweb : scheme = "http" ∨ scheme = "https") (hscheme : scheme ∈ new.schemes)
    (hnew : new.origins.isEmpty = true) :
    authorizeParsedUri new text (unlistedWebUri scheme port) = ok () := by
  refine authorizeParsedUri_eq_ok.mpr ⟨hscheme, .inl ⟨hweb, ?_⟩⟩
  refine authorizeWebUri_eq_ok.mpr ⟨?_, .inl hnew⟩
  simp only [unlistedWebUri]
  rcases hweb with rfl | rfl <;> decide

/-! ## The main result -/

/-- A narrower valid scope admits no more URIs exactly if it has origins, or the wider one
has none, or it has none of the schemes that can be opened. -/
theorem uriAccepted_of_narrower_iff (hparse : ParsesStandardUris parse)
    (hold : validateCapabilityScope .uriOpenV1 (.uriOpen old) = ok ())
    (hsub : (CapabilityScope.uriOpen new).isSubsetOf (.uriOpen old) = true) :
    (∀ request, UriAccepted parse new request → UriAccepted parse old request) ↔
      new.origins.isEmpty = false ∨ old.origins.isEmpty = true ∨
        ("http" ∉ new.schemes ∧ "https" ∉ new.schemes ∧ "mailto" ∉ new.schemes) := by
  constructor
  · intro hall
    by_contra hnot
    simp only [not_or, Bool.not_eq_false, Bool.not_eq_true] at hnot
    obtain ⟨hnew, holdne, hschemes⟩ := hnot
    -- under the web schemes, a host that no origin can name
    have hweb : ∀ scheme text port, (scheme = "http" ∨ scheme = "https") →
        UriOpenRequest.decode (openRequest text).payload = ok ⟨text⟩ →
        parse text = some (unlistedWebUri scheme port) → scheme ∉ new.schemes := by
      intro scheme text port hweb hdecode hp hmem
      have haccept := hall (openRequest text) ((uriAccepted_openRequest hdecode hp).mpr
        (authorizeParsedUri_unlisted hweb hmem hnew))
      rw [uriAccepted_openRequest hdecode hp, authorizeParsedUri_eq_ok] at haccept
      rcases haccept.2 with ⟨-, h⟩ | ⟨hmail, -⟩
      · exact not_authorizeWebUri_unlisted hold holdne h
      · have hscheme : scheme = "mailto" := hmail
        rcases hweb with rfl | rfl <;> exact absurd hscheme (by decide)
    refine hschemes ⟨hweb _ _ _ (.inl rfl) (by decide) hparse.http,
      hweb _ _ _ (.inr rfl) (by decide) hparse.https, fun hmem => ?_⟩
    -- mail is admitted only by a scope without origins
    have hdecode : UriOpenRequest.decode (openRequest "mailto:a@b").payload = ok ⟨"mailto:a@b"⟩ :=
      by decide
    have haccept := hall (openRequest "mailto:a@b")
      ((uriAccepted_openRequest hdecode hparse.mailto).mpr (authorizeParsedUri_eq_ok.mpr
        ⟨hmem, .inr ⟨rfl, hnew, rfl, by decide⟩⟩))
    rw [uriAccepted_openRequest hdecode hparse.mailto, authorizeParsedUri_eq_ok] at haccept
    rcases haccept.2 with ⟨hweb, -⟩ | ⟨-, hnone, -⟩
    · exact absurd hweb (by decide)
    · rw [holdne] at hnone
      cases hnone
  · intro hcond request haccept
    rw [uriAccepted_iff] at haccept ⊢
    obtain ⟨hcap, hop, wire, uri, hwire, huri, hauth⟩ := haccept
    refine ⟨hcap, hop, wire, uri, hwire, huri, ?_⟩
    rcases hcond with hne | hnone | ⟨hhttp, hhttps, hmailto⟩
    · exact authorizeParsedUri_of_subset hsub (fun h => by rw [hne] at h; cases h) hauth
    · exact authorizeParsedUri_of_subset hsub (fun _ => hnone) hauth
    · -- without an accepted scheme nothing is opened
      exfalso
      obtain ⟨hscheme, ⟨hs | hs, -⟩ | ⟨hs, -⟩⟩ := authorizeParsedUri_eq_ok.mp hauth
      · exact hhttp (hs ▸ hscheme)
      · exact hhttps (hs ▸ hscheme)
      · exact hmailto (hs ▸ hscheme)

/-! ## An update that opens any host -/

/-- A parser of the three URIs. -/
def parseStandardUris (text : String) : Option Url :=
  if text = "http://a_b/" then some (unlistedWebUri "http" 80)
  else if text = "https://a_b/" then some (unlistedWebUri "https" 443)
  else if text = "mailto:a@b" then some mailUri
  else none

lemma parsesStandardUris : ParsesStandardUris parseStandardUris :=
  ⟨by decide, by decide, by decide⟩

/-- The web scheme, with one origin or with none. -/
def webScope (origins : List HttpOriginRule) : UriOpenScope := ⟨.ofList ["https"], .ofList origins⟩

def exampleOrigin : HttpOriginRule := ⟨"https", "example.com", 443, .empty⟩

/-- Dropping the only origin passes as narrower, and admits a host that was not approved. -/
theorem webScope_not_narrower :
    validateCapabilityScope .uriOpenV1 (.uriOpen (webScope [])) = ok () ∧
      validateCapabilityScope .uriOpenV1 (.uriOpen (webScope [exampleOrigin])) = ok () ∧
      (CapabilityScope.uriOpen (webScope [])).isSubsetOf (.uriOpen (webScope [exampleOrigin])) =
        true ∧
      UriAccepted parseStandardUris (webScope []) (openRequest "https://a_b/") ∧
      ¬UriAccepted parseStandardUris (webScope [exampleOrigin]) (openRequest "https://a_b/") := by
  have hold : validateCapabilityScope .uriOpenV1 (.uriOpen (webScope [exampleOrigin])) = ok () := by
    decide
  have hdecode : UriOpenRequest.decode (openRequest "https://a_b/").payload =
      ok ⟨"https://a_b/"⟩ := by decide
  refine ⟨by decide, hold, by decide, ?_, ?_⟩
  · rw [uriAccepted_openRequest hdecode parsesStandardUris.https]
    decide
  · rw [uriAccepted_openRequest hdecode parsesStandardUris.https]
    decide

/-- Dropping a scheme is safe where neither scope has origins. -/
theorem uriAccepted_of_narrower_iff_webScope :
    UriAccepted parseStandardUris (webScope []) (openRequest "https://a_b/") ∧
      UriAccepted parseStandardUris ⟨.ofList ["http", "https"], .empty⟩
        (openRequest "https://a_b/") := by
  have hdecode : UriOpenRequest.decode (openRequest "https://a_b/").payload =
      ok ⟨"https://a_b/"⟩ := by decide
  have haccepted : UriAccepted parseStandardUris (webScope []) (openRequest "https://a_b/") := by
    rw [uriAccepted_openRequest hdecode parsesStandardUris.https]
    decide
  refine ⟨haccepted, ?_⟩
  exact (uriAccepted_of_narrower_iff parsesStandardUris (by decide)
    (by decide)).mpr (.inr (.inl rfl)) _ haccepted

end TouchBar.Supervisor

import TouchBar.Supervisor.Request

/-!
# Calling D-Bus methods

The broker of `dbus.call.v1` looks for the first rule of its scope that matches a
call, in the order of the set, and takes from that rule whether the user has to act
and whether the service may be started.  Comparing scopes rule by rule does not see
which rule comes first.
-/

namespace TouchBar.Supervisor

open TouchBar.Rust TouchBar.Lib TouchBar.Policy TouchBar.Schema Outcome

def dbusCallOperation : String := "call"

/-! ## Matching rules -/

def busMatches : Policy.DbusBus → Schema.DbusBus → Bool
  | .session, .session => true
  | .system, .system => true
  | _, _ => false

def destinationMatches (pattern destination : String) : Bool :=
  match Text.stripSuffix pattern ".*" with
  | some base =>
    (Text.stripPrefix destination base).any fun suffix =>
      Text.startsWith suffix "." && 1 < Text.len suffix
  | none => destination = pattern

def argumentMatches (arguments : List String) (constraint : DbusArgumentConstraint) : Bool :=
  match arguments[constraint.index]? with
  | none => false
  | some argument =>
    match constraint.equalsString, constraint.oneOfStrings with
    | some expected, none => argument = expected
    | none, some expected => expected.contains argument
    | _, _ => false

def ruleMatches (call : DbusCall) (rule : DbusCallRule) : Bool :=
  busMatches rule.bus call.bus && destinationMatches rule.destination call.destination &&
    rule.path = call.path && rule.interface = call.interface && rule.member = call.member &&
    rule.signature = call.signature && rule.arguments.all (argumentMatches call.arguments)

/-! ## Authorization -/

/-- The names that `zbus` accepts. -/
structure DbusNames where
  wellKnownName : String → Bool
  objectPath : String → Bool
  interfaceName : String → Bool
  memberName : String → Bool

/-- `validate_call_identifiers`. -/
def DbusNames.accepts (names : DbusNames) (call : DbusCall) : Bool :=
  names.wellKnownName call.destination && names.objectPath call.path &&
    names.interfaceName call.interface && names.memberName call.member

/-- The shapes of calls that `validate_supported_shape` lets through. -/
def supportedShape (call : DbusCall) : Bool :=
  match call.arguments, call.reply with
  | [], .unit => true
  | [_, _], .variantString => true
  | [_, _], .variantI64 => true
  | _, _ => false

variable (names : DbusNames)

def decodeAndMatch (request : BackendRequest) :
    Outcome BrokerErrorCode (DbusCall × DbusCallRule) := do
  rejectIf (request.capability ≠ .dbusCallV1 || request.operation ≠ dbusCallOperation)
    .invalidRequest
  let call ← mapSchemaError (DbusCall.decode request.payload)
  rejectIf (!names.accepts call) .invalidRequest
  match request.authorizedScope with
  | .dbusCall scope =>
    let rule ← okOr (scope.rules.toList.find? (ruleMatches call)) .outOfScope
    return (call, rule)
  | _ => err .invalidRequest

/-- `DbusCallBackend::authorize`: the ledger afterwards. -/
def authorizeDbusCall (request : BackendRequest) (ledger : ActivationLedger) (now : ℕ) :
    Outcome BrokerErrorCode ActivationLedger := do
  let (call, rule) ← decodeAndMatch names request
  rejectIf (!supportedShape call) .unsupported
  if rule.requiresUserActivation then
    request.consumeActivation ledger now
  else
    ok ledger

/-- What `DbusCallBackend::execute` hands to the transport: the call, and whether the
service may be started. -/
def transportCall (request : BackendRequest) : Outcome BrokerErrorCode (DbusCall × Bool) := do
  let (call, rule) ← decodeAndMatch names request
  rejectIf (!supportedShape call) .unsupported
  return (call, rule.allowServiceActivation)

/-! ## Matching and narrower rules -/

variable {names} {call : DbusCall}

lemma destinationMatches_iff {pattern destination : String} :
    destinationMatches pattern destination = true ↔
      (∃ base suffix, pattern = base ++ ".*" ∧ destination = base ++ ("." ++ suffix) ∧
        suffix ≠ "") ∨
      ((¬∃ base, pattern = base ++ ".*") ∧ destination = pattern) := by
  rw [destinationMatches]
  cases hstrip : Text.stripSuffix pattern ".*" with
  | none =>
    have hnot : ¬∃ base, pattern = base ++ ".*" := by
      rintro ⟨base, h⟩
      rw [Text.stripSuffix_eq_some.mpr h] at hstrip
      cases hstrip
    rw [decide_eq_true_eq]
    constructor
    · intro h
      exact .inr ⟨hnot, h⟩
    · rintro (⟨base, -, h, -⟩ | ⟨-, h⟩)
      · exact absurd ⟨base, h⟩ hnot
      · exact h
  | some base =>
    have hbase := Text.stripSuffix_eq_some.mp hstrip
    -- lengths are counted in bytes
    have hlen : ∀ suffix, 1 < Text.len ("." ++ suffix) ↔ suffix ≠ "" := by
      intro suffix
      have hdot : (".").utf8ByteSize = 1 := by decide
      rw [Text.len, String.utf8ByteSize_append, hdot, ne_eq, ← String.utf8ByteSize_eq_zero_iff]
      omega
    simp only [Option.any_eq_true, Text.stripPrefix_eq_some, Bool.and_eq_true, Text.startsWith_iff,
      decide_eq_true_eq]
    constructor
    · rintro ⟨_, hdestination, ⟨suffix, rfl⟩, h⟩
      exact .inl ⟨base, suffix, hbase, hdestination, (hlen suffix).mp h⟩
    · rintro (⟨base', suffix, h, hdestination, hne⟩ | ⟨h, -⟩)
      · rw [Text.stripSuffix_eq_some.mpr h] at hstrip
        obtain rfl := Option.some.inj hstrip
        exact ⟨"." ++ suffix, hdestination, ⟨suffix, rfl⟩, (hlen suffix).mpr hne⟩
      · exact absurd ⟨base, hbase⟩ h

/-- The covering pattern matches what the covered one does.  A destination that ends in a
dot is the exception: `base.` is covered by `base.*` and not matched by it. -/
lemma destinationMatches_of_subset {new old destination : String}
    (hdot : Text.endsWith destination "." = false) (hsub : dottedNameSubset new old = true)
    (h : destinationMatches new destination = true) :
    destinationMatches old destination = true := by
  rcases dottedNameSubset_iff.mp hsub with rfl | ⟨base, suffix, rfl, rfl⟩
  · exact h
  refine destinationMatches_iff.mpr (.inl ?_)
  rcases destinationMatches_iff.mp h with ⟨base', rest, hpattern, rfl, hne⟩ | ⟨-, rfl⟩
  · -- both are patterns: what follows `base'.` follows `base.` too
    obtain ⟨rest', hrest⟩ := exists_rest_of_wildcard hpattern.symm
    refine ⟨base, rest' ++ rest, rfl, ?_, ?_⟩
    · rw [← String.append_assoc, hrest]
      simp only [String.append_assoc]
    · intro hempty
      have := congrArg String.utf8ByteSize hempty
      rw [String.utf8ByteSize_append, String.utf8ByteSize_empty] at this
      exact hne (String.utf8ByteSize_eq_zero_iff.mp (by omega))
  · refine ⟨base, suffix, rfl, rfl, ?_⟩
    rintro rfl
    rw [String.append_empty, Text.endsWith_append] at hdot
    cases hdot

lemma argumentMatches_of_subset {arguments : List String} {new old : DbusArgumentConstraint}
    (hsub : dbusArgumentSubset new old = true) (h : argumentMatches arguments new = true) :
    argumentMatches arguments old = true := by
  obtain ⟨hindex, hcases⟩ := dbusArgumentSubset_iff.mp hsub
  rw [argumentMatches] at h ⊢
  rw [← hindex]
  cases hargument : arguments[new.index]? with
  | none => simp [hargument] at h
  | some argument =>
    rcases hcases with ⟨s, hn, hn', ho, ho'⟩ | ⟨s, t, hn, hn', ho, ho', hst⟩ |
      ⟨s, t, hn, hn', ho, ho', hst⟩
    · simpa [hargument, hn, hn', ho, ho'] using h
    · simp only [hargument, hn, hn', ho, ho', decide_eq_true_eq, BTreeSet.contains_iff] at h ⊢
      exact h ▸ hst
    · simp only [hargument, hn, hn', ho, ho', BTreeSet.contains_iff] at h ⊢
      exact hst _ h

/-- A call that matches a rule matches every rule that covers it. -/
lemma ruleMatches_of_subset {new old : DbusCallRule}
    (hdot : Text.endsWith call.destination "." = false)
    (hsub : dbusCallRuleSubset new old = true) (h : ruleMatches call new = true) :
    ruleMatches call old = true := by
  simp only [dbusCallRuleSubset, ruleMatches, Bool.and_eq_true, decide_eq_true_eq] at hsub h ⊢
  obtain ⟨⟨⟨⟨⟨⟨⟨⟨hb, hd⟩, hp⟩, hi⟩, hm⟩, hs⟩, ha⟩, -⟩, -⟩ := hsub
  obtain ⟨⟨⟨⟨⟨⟨hbus, hdestination⟩, hpath⟩, hinterface⟩, hmember⟩, hsignature⟩, harguments⟩ := h
  refine ⟨⟨⟨⟨⟨⟨hb ▸ hbus, destinationMatches_of_subset hdot hd hdestination⟩, hp ▸ hpath⟩,
    hi ▸ hinterface⟩, hm ▸ hmember⟩, hs ▸ hsignature⟩, ?_⟩
  exact all_of_coveredBy (fun _ _ hab h => argumentMatches_of_subset hab h) ha harguments

/-! ## The first matching rule -/

/-- The rule that decides about a call: the smallest one that matches. -/
structure FirstMatch (rules : BTreeSet DbusCallRule) (call : DbusCall) (rule : DbusCallRule) :
    Prop where
  mem : rule ∈ rules
  matches_call : ruleMatches call rule = true
  first : ∀ r ∈ rules, ruleMatches call r = true → rule ≤ r

lemma find?_eq_some_iff_firstMatch {rules : BTreeSet DbusCallRule} {rule : DbusCallRule} :
    rules.toList.find? (ruleMatches call) = some rule ↔ FirstMatch rules call rule := by
  rw [BTreeSet.find?_eq_some_iff]
  exact ⟨fun h => ⟨h.1, h.2.1, h.2.2⟩, fun h => ⟨h.mem, h.matches_call, h.first⟩⟩

lemma FirstMatch.unique {rules : BTreeSet DbusCallRule} {rule rule' : DbusCallRule}
    (h : FirstMatch rules call rule) (h' : FirstMatch rules call rule') : rule = rule' :=
  le_antisymm (h.first _ h'.mem h'.matches_call) (h'.first _ h.mem h.matches_call)

/-- A call in a scope is in every wider scope, though another rule may decide about it. -/
lemma FirstMatch.exists_of_subset {new old : DbusCallScope} {rule : DbusCallRule}
    (hdot : Text.endsWith call.destination "." = false)
    (hsub : (CapabilityScope.dbusCall new).isSubsetOf (.dbusCall old) = true)
    (h : FirstMatch new.rules call rule) : ∃ rule', FirstMatch old.rules call rule' := by
  have hany : old.rules.toList.any (ruleMatches call) = true :=
    any_of_coveredBy (fun _ _ => ruleMatches_of_subset hdot) hsub
      (List.any_eq_true.mpr ⟨rule, h.mem, h.matches_call⟩)
  obtain ⟨rule', hfind⟩ := Option.isSome_iff_exists.mp
    (List.find?_isSome.mpr (List.any_eq_true.mp hany))
  exact ⟨rule', find?_eq_some_iff_firstMatch.mp hfind⟩

/-! ## What the broker does with a request -/

/-- The request with a scope in place of its own. -/
abbrev BackendRequest.under (request : BackendRequest) (scope : DbusCallScope) : BackendRequest :=
  { request with authorizedScope := .dbusCall scope }

/-- The request carries a call that passes all checks but that of the scope. -/
structure CarriesCall (names : DbusNames) (request : BackendRequest) (call : DbusCall) : Prop where
  capability : request.capability = .dbusCallV1
  operation : request.operation = dbusCallOperation
  decoded : DbusCall.decode request.payload = ok call
  accepted : names.accepts call = true
  supported : supportedShape call = true

lemma CarriesCall.unique {request : BackendRequest} {call call' : DbusCall}
    (h : CarriesCall names request call) (h' : CarriesCall names request call') : call = call' :=
  Outcome.ok.inj (h.decoded.symm.trans h'.decoded)

lemma decodeAndMatch_eq_ok {request : BackendRequest} {scope : DbusCallScope}
    {rule : DbusCallRule} :
    (decodeAndMatch names (request.under scope) = ok (call, rule) ∧ supportedShape call = true) ↔
      CarriesCall names request call ∧ FirstMatch scope.rules call rule := by
  simp only [decodeAndMatch, bind_eq_ok, rejectIf_eq_ok,
    mapSchemaError_eq_ok, okOr_eq_ok, pure_eq, ok.injEq, Prod.mk.injEq, Bool.or_eq_false_iff,
    decide_eq_false_iff_not, not_not, Bool.not_eq_false', find?_eq_some_iff_firstMatch]
  constructor
  · rintro ⟨⟨_, ⟨hcap, hop⟩, call', hdecode, _, hnames, rule', hrule, rfl, rfl⟩, hshape⟩
    exact ⟨⟨hcap, hop, hdecode, hnames, hshape⟩, hrule⟩
  · rintro ⟨hcall, hrule⟩
    exact ⟨⟨(), ⟨hcall.capability, hcall.operation⟩, call, hcall.decoded, (), hcall.accepted,
      rule, hrule, rfl, rfl⟩, hcall.supported⟩

/-- A request is authorized if a rule admits its call and, where that rule asks for it, the
activation can be consumed. -/
lemma authorizeDbusCall_eq_ok {request : BackendRequest} {scope : DbusCallScope}
    {ledger ledger' : ActivationLedger} {now : ℕ} :
    authorizeDbusCall names (request.under scope) ledger now = ok ledger' ↔
      ∃ call rule, CarriesCall names request call ∧ FirstMatch scope.rules call rule ∧
        (if rule.requiresUserActivation then request.consumeActivation ledger now else ok ledger) =
          ok ledger' := by
  simp only [authorizeDbusCall, bind_eq_ok, rejectIf_eq_ok, Bool.not_eq_false', Prod.exists]
  constructor
  · rintro ⟨call, rule, hmatch, _, hshape, h⟩
    obtain ⟨hcall, hrule⟩ := decodeAndMatch_eq_ok.mp ⟨hmatch, hshape⟩
    exact ⟨call, rule, hcall, hrule, h⟩
  · rintro ⟨call, rule, hcall, hrule, h⟩
    obtain ⟨hmatch, hshape⟩ := decodeAndMatch_eq_ok.mpr ⟨hcall, hrule⟩
    exact ⟨call, rule, hmatch, (), hshape, h⟩

lemma transportCall_eq_ok {request : BackendRequest} {scope : DbusCallScope} {flag : Bool} :
    transportCall names (request.under scope) = ok (call, flag) ↔
      ∃ rule, CarriesCall names request call ∧ FirstMatch scope.rules call rule ∧
        rule.allowServiceActivation = flag := by
  simp only [transportCall, bind_eq_ok, rejectIf_eq_ok, Bool.not_eq_false', Prod.exists, pure_eq,
    ok.injEq, Prod.mk.injEq]
  constructor
  · rintro ⟨_, rule, hmatch, _, hshape, rfl, hflag⟩
    obtain ⟨hcall, hrule⟩ := decodeAndMatch_eq_ok.mp ⟨hmatch, hshape⟩
    exact ⟨rule, hcall, hrule, hflag⟩
  · rintro ⟨rule, hcall, hrule, hflag⟩
    obtain ⟨hmatch, hshape⟩ := decodeAndMatch_eq_ok.mpr ⟨hcall, hrule⟩
    exact ⟨call, rule, hmatch, (), hshape, rfl, hflag⟩

/-! ## Narrower scopes -/

/-- Whether a scope admits a request. -/
def DbusAccepted (names : DbusNames) (scope : DbusCallScope) (request : BackendRequest)
    (ledger : ActivationLedger) (now : ℕ) : Prop :=
  ∃ ledger', authorizeDbusCall names (request.under scope) ledger now = ok ledger'

/-- With any activation or none, the new scope admits the request only if the old one does,
and starts the service only if the old one does. -/
def DbusNarrowed (names : DbusNames) (new old : DbusCallScope) (request : BackendRequest) : Prop :=
  (∀ activation ledger now,
    DbusAccepted names new { request with activation := activation } ledger now →
    DbusAccepted names old { request with activation := activation } ledger now) ∧
  ∀ call, transportCall names (request.under new) = ok (call, true) →
    transportCall names (request.under old) = ok (call, true)

/-- The rules that decide about a call in the two scopes compare as approved rules do. -/
def DecidingRulesNarrowed (new old : DbusCallScope) (call : DbusCall) : Prop :=
  ∀ rule rule', FirstMatch new.rules call rule → FirstMatch old.rules call rule' →
    activationRequirementSubset rule.requiresUserActivation rule'.requiresUserActivation = true ∧
    boolAuthoritySubset rule.allowServiceActivation rule'.allowServiceActivation = true

lemma CarriesCall.of_activation {request : BackendRequest} {activation : Option ActivationContext} :
    CarriesCall names { request with activation := activation } call ↔
      CarriesCall names request call :=
  ⟨fun h => ⟨h.1, h.2, h.3, h.4, h.5⟩, fun h => ⟨h.1, h.2, h.3, h.4, h.5⟩⟩

lemma consumeActivation_none {request : BackendRequest} {ledger ledger' : ActivationLedger}
    {now : ℕ} :
    { request with activation := none : BackendRequest }.consumeActivation ledger now ≠
      ok ledger' := by
  simp [BackendRequest.consumeActivation, okOr]

lemma decidingRulesNarrowed_of_dbusNarrowed {new old : DbusCallScope} {request : BackendRequest}
    (h : DbusNarrowed names new old request) (hcall : CarriesCall names request call) :
    DecidingRulesNarrowed new old call := by
  intro rule rule' hrule hrule'
  constructor
  · -- without an activation, the old scope admits the call only if it does not ask for one
    rw [activationRequirementSubset_iff]
    intro hold
    by_contra hnew
    rw [Bool.not_eq_true] at hnew
    obtain ⟨ledger', haccept⟩ := h.1 none ⟨.empty, 0⟩ 0 ⟨_, authorizeDbusCall_eq_ok.mpr
      ⟨call, rule, CarriesCall.of_activation.mpr hcall, hrule, by rw [hnew]; rfl⟩⟩
    obtain ⟨call', rule'', hcall', hrule'', hconsume⟩ := authorizeDbusCall_eq_ok.mp haccept
    obtain rfl := hcall.unique (CarriesCall.of_activation.mp hcall')
    obtain rfl := hrule'.unique hrule''
    rw [hold, if_pos rfl] at hconsume
    exact consumeActivation_none hconsume
  · rw [boolAuthoritySubset_iff]
    intro hallow
    obtain ⟨rule'', -, hrule'', hflag⟩ := transportCall_eq_ok.mp
      (h.2 call (transportCall_eq_ok.mpr ⟨rule, hcall, hrule, hallow⟩))
    rw [hrule'.unique hrule'', hflag]

/-- What `zbus` promises of a name: it does not end in a dot. -/
def DbusNames.Wellformed (names : DbusNames) : Prop :=
  ∀ name, names.wellKnownName name = true → Text.endsWith name "." = false

variable {new old : DbusCallScope} {request : BackendRequest}

lemma dbusNarrowed_of_decidingRulesNarrowed (hnames : names.Wellformed)
    (hsub : (CapabilityScope.dbusCall new).isSubsetOf (.dbusCall old) = true)
    (h : ∀ call, CarriesCall names request call → DecidingRulesNarrowed new old call) :
    DbusNarrowed names new old request := by
  have hexists : ∀ {call rule}, CarriesCall names request call → FirstMatch new.rules call rule →
      ∃ rule', FirstMatch old.rules call rule' := by
    intro call rule hcall hrule
    have haccepts := hcall.accepted
    simp only [DbusNames.accepts, Bool.and_eq_true] at haccepts
    exact hrule.exists_of_subset (hnames _ haccepts.1.1.1) hsub
  constructor
  · rintro activation ledger now ⟨ledger', haccept⟩
    obtain ⟨call, rule, hcall, hrule, hconsume⟩ := authorizeDbusCall_eq_ok.mp haccept
    have hcall' := CarriesCall.of_activation.mp hcall
    obtain ⟨rule', hrule'⟩ := hexists hcall' hrule
    obtain ⟨hactivation, -⟩ := h call hcall' rule rule' hrule hrule'
    -- the old rule asks for an activation only if the new one has consumed it
    cases hold : rule'.requiresUserActivation with
    | false =>
      refine ⟨ledger, authorizeDbusCall_eq_ok.mpr ⟨call, rule', hcall, hrule', ?_⟩⟩
      rw [hold]
      rfl
    | true =>
      have hnew := activationRequirementSubset_iff.mp hactivation hold
      refine ⟨ledger', authorizeDbusCall_eq_ok.mpr ⟨call, rule', hcall, hrule', ?_⟩⟩
      rw [hnew] at hconsume
      rwa [hold]
  · intro call hcall
    obtain ⟨rule, hcall, hrule, hallow⟩ := transportCall_eq_ok.mp hcall
    obtain ⟨rule', hrule'⟩ := hexists hcall hrule
    obtain ⟨-, hauthority⟩ := h call hcall rule rule' hrule hrule'
    exact transportCall_eq_ok.mpr
      ⟨rule', hcall, hrule', boolAuthoritySubset_iff.mp hauthority hallow⟩

/-- A narrower scope admits no more of a request exactly if, for the call it carries, the
first matching rule of the old scope is no stricter than the first matching rule of the new
one.  The rule that covers the latter need not be the former. -/
theorem dbusNarrowed_iff (hnames : names.Wellformed)
    (hsub : (CapabilityScope.dbusCall new).isSubsetOf (.dbusCall old) = true) :
    DbusNarrowed names new old request ↔
      ∀ call, CarriesCall names request call → DecidingRulesNarrowed new old call :=
  ⟨fun h _ hcall => decidingRulesNarrowed_of_dbusNarrowed h hcall,
    dbusNarrowed_of_decidingRulesNarrowed hnames hsub⟩

/-- Rules that match the same call agree on what else they demand. -/
def AgreeingRules (rules : BTreeSet DbusCallRule) : Prop :=
  ∀ call, ∀ r ∈ rules, ∀ r' ∈ rules, ruleMatches call r = true → ruleMatches call r' = true →
    r.requiresUserActivation = r'.requiresUserActivation ∧
      r.allowServiceActivation = r'.allowServiceActivation

/-- If overlapping rules of the old scope agree, the order of the set does not matter and
every narrower scope is safe. -/
theorem dbusNarrowed_of_agreeingRules (hnames : names.Wellformed) (hagree : AgreeingRules old.rules)
    (hsub : (CapabilityScope.dbusCall new).isSubsetOf (.dbusCall old) = true) :
    DbusNarrowed names new old request := by
  refine dbusNarrowed_of_decidingRulesNarrowed hnames hsub ?_
  intro call hcall rule rule' hrule hrule'
  have haccepts := hcall.accepted
  simp only [DbusNames.accepts, Bool.and_eq_true] at haccepts
  -- the rule that covers the new one matches too, and agrees with the one that decides
  obtain ⟨approved, happroved, hcovers⟩ := coveredBy_iff.mp hsub rule hrule.mem
  have hmatches := ruleMatches_of_subset (hnames _ haccepts.1.1.1) hcovers hrule.matches_call
  obtain ⟨hactivation, hservice⟩ :=
    hagree call approved happroved rule' hrule'.mem hmatches hrule'.matches_call
  simp only [dbusCallRuleSubset, Bool.and_eq_true] at hcovers
  rw [← hactivation, ← hservice]
  exact ⟨hcovers.2, hcovers.1.2⟩

/-! ## An update that drops a shadowing rule -/

/-- Names without an empty element. -/
def sampleNames : DbusNames where
  wellKnownName name := validDottedName name && !Text.endsWith name "."
  objectPath path := Text.startsWith path "/"
  interfaceName := validDottedName
  memberName := validMember

lemma sampleNames_wellformed : sampleNames.Wellformed := by
  intro name h
  simp only [sampleNames, Bool.and_eq_true, Bool.not_eq_true'] at h
  exact h.2

/-- To start playing on the destinations of a pattern. -/
def playRule (destination : String) (requiresUserActivation : Bool) : DbusCallRule where
  bus := .session
  destination := destination
  path := "/player"
  interface := "org.example.Player"
  member := "Play"
  signature := ""
  arguments := []
  allowServiceActivation := false
  requiresUserActivation := requiresUserActivation

/-- Every player may be started after a touch, the main one without. -/
def allPlayers : DbusCallScope :=
  ⟨.ofList [playRule "org.example.*" true, playRule "org.example.Main" false]⟩

def mainPlayer : DbusCallScope := ⟨.ofList [playRule "org.example.Main" false]⟩

/-- The request to play on a destination, without an activation. -/
def playRequest (destination : String) : BackendRequest where
  capability := .dbusCallV1
  authorizedScope := .dbusCall ⟨.empty⟩
  activation := none
  operation := dbusCallOperation
  payload :=
    match DbusCall.encode
      ⟨.session, destination, "/player", "org.example.Player", "Play", [], .unit⟩ with
    | ok bytes => bytes
    | _ => []

/-- Under the approved scope the main player needs an activation, since the pattern sorts
before the name; dropping the pattern passes as narrower and lifts the requirement. -/
theorem mainPlayer_not_narrower :
    validateCapabilityScope .dbusCallV1 (.dbusCall mainPlayer) = ok () ∧
      validateCapabilityScope .dbusCallV1 (.dbusCall allPlayers) = ok () ∧
      (CapabilityScope.dbusCall mainPlayer).isSubsetOf (.dbusCall allPlayers) = true ∧
      DbusAccepted sampleNames mainPlayer (playRequest "org.example.Main") ⟨.empty, 8⟩ 0 ∧
      ¬DbusAccepted sampleNames allPlayers (playRequest "org.example.Main") ⟨.empty, 8⟩ 0 := by
  refine ⟨by decide, by decide, by decide, ⟨⟨.empty, 8⟩, ?_⟩, ?_⟩
  · decide
  · rintro ⟨ledger', h⟩
    have hrejected : authorizeDbusCall sampleNames
        ((playRequest "org.example.Main").under allPlayers) ⟨.empty, 8⟩ 0 =
        err .activationRequired := by
      decide
    rw [hrejected] at h
    cases h

/-- Dropping the name instead is safe: the pattern decides before and after. -/
theorem dbusNarrowed_iff_allPlayers :
    DbusNarrowed sampleNames ⟨.ofList [playRule "org.example.*" true]⟩ allPlayers
      (playRequest "org.example.Main") := by
  refine (dbusNarrowed_iff sampleNames_wellformed (by decide)).mpr ?_
  intro call _ rule rule' hrule hrule'
  have hpattern : rule = playRule "org.example.*" true := by
    simpa using BTreeSet.mem_ofList.mp hrule.mem
  subst hpattern
  have hfirst := hrule'.first (playRule "org.example.*" true)
    (BTreeSet.mem_ofList.mpr List.mem_cons_self) hrule.matches_call
  have hmem : rule' = playRule "org.example.*" true ∨
      rule' = playRule "org.example.Main" false := by
    simpa using BTreeSet.mem_ofList.mp hrule'.mem
  rcases hmem with rfl | rfl
  · exact ⟨rfl, rfl⟩
  · exact absurd hfirst (by decide)

end TouchBar.Supervisor

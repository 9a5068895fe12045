import TouchBar.Policy.Capability
import TouchBar.Rust.Net
import TouchBar.Rust.Outcome
import TouchBar.Rust.Path

/-!
# Validation of scopes

`validate_scope` goes over a scope and reports every issue it finds.  Here it is a
list of messages in the order of the reports, put together from one list for each
check; a scope is valid if the list is empty.
-/

namespace TouchBar.Policy

open TouchBar.Rust Outcome

structure NormalizationError where
  field : String
  message : String
deriving DecidableEq, Repr

/-- `Display`. -/
def NormalizationError.display (e : NormalizationError) : String := e.field ++ ": " ++ e.message

/-- One report, if there is reason for it. -/
def issueIf (condition : Bool) (message : String) : List String :=
  if condition then [message] else []

@[simp] lemma issueIf_eq_nil {condition : Bool} {message : String} :
    issueIf condition message = [] ↔ condition = false := by
  cases condition <;> simp [issueIf]

/-! ## Texts -/

def validKebabId (value : String) : Bool :=
  !Text.isEmpty value && Text.len value ≤ 64 && Text.headIs value Char.isLower &&
    !Text.startsWith value "-" && !Text.endsWith value "-" && !Text.containsStr value "--" &&
    Text.all value fun c => c.isLower || c.isDigit || c == '-'

def validDottedId (value : String) : Bool :=
  Text.len value ≤ 128 && (Text.split value '.').all validKebabId && Text.containsChar value '.'

def validDottedName (value : String) : Bool :=
  Text.containsChar value '.' && (Text.split value '.').all fun part =>
    !Text.isEmpty part && Text.all part fun c => c.isAlphanum || c == '_'

def validMember (value : String) : Bool :=
  !Text.isEmpty value && Text.headIs value Char.isAlpha &&
    Text.all value fun c => c.isAlphanum || c == '_'

def validEnvironmentName (value : String) : Bool :=
  !Text.isEmpty value && Text.headIs value (fun c => c.isAlpha || c == '_') &&
    Text.all value fun c => c.isAlphanum || c == '_'

def validScheme (value : String) : Bool :=
  !Text.isEmpty value && Text.headIs value Char.isLower &&
    Text.all value fun c => c.isLower || c.isDigit || ['+', '-', '.'].contains c

def dangerousEnvironmentName (name : String) : Bool :=
  Text.startsWith name "LD_" || Text.startsWith name "DYLD_" ||
    ["GCONV_PATH", "GETCONF_DIR", "GLIBC_TUNABLES", "HOSTALIASES", "LOCPATH"].contains name

def validCanonicalHttpHost (host : String) : Bool :=
  if (Net.parseIpAddr host).isSome then true
  else if 253 < Text.len host || Text.startsWith host "." || Text.endsWith host "." ||
      Text.containsStr host ".." || Text.all host (fun c => c.isDigit || c == '.') then false
  else
    (Text.split host '.').all fun label =>
      !Text.isEmpty label && Text.len label ≤ 63 && !Text.startsWith label "-" &&
        !Text.endsWith label "-" && Text.all label fun c => c.isAlphanum || c == '-'

/-! ## Single checks -/

def requireNonempty {α : Type} [LinearOrder α] (values : BTreeSet α) (name : String) :
    List String :=
  issueIf values.isEmpty (name ++ " must not be empty")

def requireNonzero (value : ℕ) (name : String) : List String :=
  issueIf (value = 0) (name ++ " must be nonzero")

def requireAtMost (value maximum : ℕ) (name : String) : List String :=
  issueIf (maximum < value) (name ++ " exceeds host maximum " ++ toString maximum)

def requireCollectionLimit (length maximum : ℕ) (name : String) : List String :=
  issueIf (maximum < length)
    (name ++ " contains " ++ toString length ++ " entries; maximum is " ++ toString maximum)

def validateRate (value : ℕ) : List String := issueIf (value = 0) "rate must be nonzero"

def validateKebabSet (values : BTreeSet String) (label : String) : List String :=
  values.toList.flatMap fun value =>
    issueIf (!validKebabId value) ("invalid " ++ label ++ " " ++ value)

/-- The loop of `validate_mounts`; `labels` holds the labels seen so far. -/
def mountIssues : BTreeSet String → List FilesystemMountRequest → List String
  | _, [] => []
  | labels, mount :: mounts =>
    issueIf (!validKebabId mount.label) ("invalid mount label " ++ mount.label) ++
      issueIf (labels.contains mount.label) ("duplicate mount label " ++ mount.label) ++
      mountIssues (labels.insert mount.label) mounts

def validateMounts (mounts : BTreeSet FilesystemMountRequest) : List String :=
  requireNonempty mounts "mounts" ++ requireCollectionLimit mounts.len 32 "mounts" ++
    mountIssues .empty mounts.toList

def invalidPathPrefix (path : String) : Bool :=
  !Text.startsWith path "/" || Text.containsChar path '?' || Text.containsChar path '#' ||
    Text.containsChar path '%' || Text.containsChar path '\\' || Text.containsStr path "//" ||
    (Text.split path '/').any (fun part => part = "." ∨ part = "..") ||
    (path ≠ "/" && !Text.endsWith path "/")

def invalidHttpHost (host : String) : Bool :=
  Text.isEmpty host || !Text.isAscii host || host ≠ Text.toAsciiLowercase host ||
    !validCanonicalHttpHost host

def validateHttpOrigin (origin : HttpOriginRule) : List String :=
  issueIf (origin.scheme ≠ "https" && origin.scheme ≠ "http")
      ("unsupported HTTP scheme " ++ origin.scheme) ++
    issueIf (invalidHttpHost origin.host) ("HTTP host " ++ origin.host ++ " is not canonical") ++
    issueIf (origin.port = 0) "HTTP origin port must be nonzero" ++
    origin.pathPrefixes.toList.flatMap fun path =>
      issueIf (invalidPathPrefix path)
        ("HTTP path prefix " ++ path ++ " must be an absolute directory prefix ending in /")

def validateDbusRule (destination path interface member : String) : List String :=
  issueIf (Text.startsWith destination ":" || !(validDottedName destination ||
      (Text.stripSuffix destination ".*").any validDottedName))
      ("invalid D-Bus well-known name " ++ destination) ++
    issueIf (!Text.startsWith path "/" || Text.containsStr path "//" || Text.containsChar path '*')
      ("invalid D-Bus object path " ++ path) ++
    issueIf (!validDottedName interface || !validMember member)
      ("invalid D-Bus interface or member " ++ interface ++ "." ++ member)

/-- The loop over the argument constraints of a rule; `indices` holds the indices seen so
far. -/
def dbusArgumentIssues : BTreeSet ℕ → List DbusArgumentConstraint → List String
  | _, [] => []
  | indices, argument :: arguments =>
    issueIf (indices.contains argument.index)
        ("duplicate D-Bus argument constraint " ++ toString argument.index) ++
      issueIf (argument.equalsString.isSome = argument.oneOfStrings.isSome)
        "D-Bus argument constraint requires exactly one matcher" ++
      issueIf (argument.oneOfStrings.any BTreeSet.isEmpty)
        "D-Bus argument one_of_strings must not be empty" ++
      dbusArgumentIssues (indices.insert argument.index) arguments

def validateCommandArgument : CommandArgument → List String
  | .literal value =>
    issueIf (4096 < Text.len value || Text.containsChar value '\x00')
      "invalid literal command argument"
  | .boundedInteger name minimum maximum =>
    issueIf (!validKebabId name || maximum < minimum) ("invalid bounded integer argument " ++ name)
  | .fixedEnum name values =>
    issueIf (!validKebabId name || values.isEmpty || 64 < values.len ||
        values.toList.any fun value => 4096 < Text.len value || Text.containsChar value '\x00')
      ("invalid fixed enum argument " ++ name)
  | .boundedText name maximumBytes =>
    issueIf (!validKebabId name || maximumBytes = 0 || 4096 < maximumBytes)
      ("invalid bounded text argument " ++ name)
  | .approvedFile name mount =>
    issueIf (!validKebabId name || !validKebabId mount) ("invalid approved file argument " ++ name)
  | .url name schemes =>
    issueIf (!validKebabId name || schemes.isEmpty || !schemes.toList.all validScheme)
      ("invalid URL argument " ++ name)

def commandArgumentName : CommandArgument → Option String
  | .literal _ => none
  | .boundedInteger name _ _ => some name
  | .fixedEnum name _ => some name
  | .boundedText name _ => some name
  | .approvedFile name _ => some name
  | .url name _ => some name

/-- The loop over the arguments of a command; `names` holds the names seen so far. -/
def commandArgumentIssues : BTreeSet String → List CommandArgument → List String
  | _, [] => []
  | names, argument :: arguments =>
    validateCommandArgument argument ++
      match commandArgumentName argument with
      | some name =>
        issueIf (names.contains name) ("duplicate command argument name " ++ name) ++
          commandArgumentIssues (names.insert name) arguments
      | none => commandArgumentIssues names arguments

/-- The checks of a command apart from its identifier. -/
def commandIssues (command : CommandRule) : List String :=
  issueIf (!Path.isNormalizedAbsolute command.executable)
      ("command executable " ++ command.executable ++ " must be an absolute normalized path") ++
    requireNonzero command.maximumOutputBytes "maximum_output_bytes" ++
    requireNonzero command.timeoutMilliseconds "timeout_milliseconds" ++
    requireAtMost command.maximumOutputBytes (1024 * 1024) "maximum_output_bytes" ++
    requireAtMost command.timeoutMilliseconds 60000 "timeout_milliseconds" ++
    requireCollectionLimit command.arguments.length 32 "command arguments" ++
    commandArgumentIssues .empty command.arguments ++
    requireCollectionLimit command.environment.len 16 "command environment" ++
    command.environment.entries.flatMap (fun entry =>
      issueIf (!validEnvironmentName entry.1 || dangerousEnvironmentName entry.1)
          ("invalid environment name " ++ entry.1) ++
        issueIf (4096 < Text.len entry.2 || Text.containsChar entry.2 '\x00')
          ("invalid environment value for " ++ entry.1)) ++
    issueIf (command.workingDirectory.any fun directory => !Path.isNormalizedAbsolute directory)
      "command working_directory must be an absolute normalized path"

/-- The loop over the commands; `ids` holds the identifiers seen so far.  An invalid
identifier is not recorded. -/
def commandRunIssues : BTreeSet String → List CommandRule → List String
  | _, [] => []
  | ids, command :: commands =>
    issueIf (!validKebabId command.id || ids.contains command.id)
        ("invalid command id " ++ command.id) ++
      commandIssues command ++
      commandRunIssues (if validKebabId command.id then ids.insert command.id else ids) commands

def invalidMimeType (mime : String) : Bool :=
  Text.isEmpty mime || 128 < Text.len mime || !Text.isAscii mime || !Text.containsChar mime '/' ||
    Text.any mime fun c =>
      -- `is_ascii_whitespace` is part of `is_ascii_control` apart from the blank
      c == ' ' || c.toNat < 0x20 || c.toNat == 0x7f

/-! ## Scopes -/

/-- The issues of `validate_scope` apart from the type of the scope. -/
def scopeIssues : CapabilityScope → List String
  | .contextRead value =>
    requireNonempty value.facts "facts" ++
      requireCollectionLimit value.facts.len 32 "facts" ++
      validateRate value.maximumUpdatesPerSecond ++
      requireAtMost value.maximumUpdatesPerSecond 60 "maximum_updates_per_second" ++
      value.facts.toList.flatMap fun fact =>
        issueIf (!validDottedId fact) ("invalid context fact " ++ fact)
  | .filesystemRead value =>
    validateMounts value.mounts ++
      requireNonzero value.maximumFileBytes "maximum_file_bytes" ++
      requireAtMost value.maximumFileBytes (64 * 1024 * 1024) "maximum_file_bytes"
  | .filesystemWrite value =>
    validateMounts value.mounts ++
      requireNonempty value.operations "operations" ++
      requireNonzero value.maximumFileBytes "maximum_file_bytes" ++
      requireNonzero value.maximumTotalBytesPerHour "maximum_total_bytes_per_hour" ++
      requireAtMost value.maximumFileBytes (64 * 1024 * 1024) "maximum_file_bytes" ++
      requireAtMost value.maximumTotalBytesPerHour (1024 * 1024 * 1024)
        "maximum_total_bytes_per_hour"
  | .httpRequest value =>
    requireNonempty value.origins "origins" ++
      requireNonempty value.methods "methods" ++
      requireNonzero value.maximumRequestBytes "maximum_request_bytes" ++
      requireNonzero value.maximumResponseBytes "maximum_response_bytes" ++
      validateRate value.maximumRequestsPerMinute ++
      requireAtMost value.maximumRequestBytes (4 * 1024 * 1024) "maximum_request_bytes" ++
      requireAtMost value.maximumResponseBytes (32 * 1024 * 1024) "maximum_response_bytes" ++
      requireAtMost value.maximumRequestsPerMinute 600 "maximum_requests_per_minute" ++
      value.origins.toList.flatMap validateHttpOrigin
  | .dbusCall value =>
    requireNonempty value.rules "rules" ++
      requireCollectionLimit value.rules.len 64 "rules" ++
      value.rules.toList.flatMap fun rule =>
        validateDbusRule rule.destination rule.path rule.interface rule.member ++
          dbusArgumentIssues .empty rule.arguments
  | .dbusSubscribe value =>
    requireNonempty value.rules "rules" ++
      validateRate value.maximumEventsPerSecond ++
      requireAtMost value.maximumEventsPerSecond 120 "maximum_events_per_second" ++
      requireCollectionLimit value.rules.len 64 "rules" ++
      value.rules.toList.flatMap fun rule =>
        validateDbusRule rule.sender rule.path rule.interface rule.member
  | .commandRun value =>
    requireNonempty value.commands "commands" ++
      issueIf (value.maximumParallelProcesses = 0) "maximum_parallel_processes must be nonzero" ++
      requireAtMost value.maximumParallelProcesses 4 "maximum_parallel_processes" ++
      requireCollectionLimit value.commands.len 32 "commands" ++
      commandRunIssues .empty value.commands.toList
  | .clipboard value =>
    requireNonempty value.mimeTypes "mime_types" ++
      requireCollectionLimit value.mimeTypes.len 16 "mime_types" ++
      requireNonzero value.maximumBytes "maximum_bytes" ++
      requireAtMost value.maximumBytes (4 * 1024 * 1024) "maximum_bytes" ++
      validateRate value.maximumOperationsPerMinute ++
      requireAtMost value.maximumOperationsPerMinute 60 "maximum_operations_per_minute" ++
      value.mimeTypes.toList.flatMap fun mime =>
        issueIf (invalidMimeType mime) ("invalid MIME type " ++ mime)
  | .secretRead value =>
    requireNonempty value.logicalNames "logical_names" ++
      validateKebabSet value.logicalNames "secret"
  | .notificationSend value =>
    requireNonempty value.categories "categories" ++
      requireNonempty value.urgency "urgency" ++
      validateRate value.maximumPerMinute ++
      requireAtMost value.maximumPerMinute 60 "maximum_per_minute" ++
      validateKebabSet value.categories "notification category"
  | .uriOpen value =>
    requireNonempty value.schemes "schemes" ++
      value.schemes.toList.flatMap (fun scheme =>
        issueIf (!validScheme scheme) ("invalid URI scheme " ++ scheme)) ++
      value.origins.toList.flatMap validateHttpOrigin
  | .localConnect value =>
    requireNonempty value.endpoints "endpoints" ++
      requireNonzero value.maximumFrameBytes "maximum_frame_bytes" ++
      requireNonzero value.maximumBytesPerMinute "maximum_bytes_per_minute" ++
      requireAtMost value.maximumFrameBytes (1024 * 1024) "maximum_frame_bytes" ++
      requireAtMost value.maximumBytesPerMinute (64 * 1024 * 1024) "maximum_bytes_per_minute" ++
      value.endpoints.toList.flatMap fun endpoint =>
        issueIf (!validKebabId endpoint.label || !validDottedId endpoint.protocol)
          ("invalid local endpoint " ++ endpoint.label)
  | .appearanceProvide value =>
    requireNonempty value.providers "providers" ++
      requireCollectionLimit value.providers.len 8 "providers" ++
      validateMounts value.mounts ++
      requireNonzero value.maximumFileBytes "maximum_file_bytes" ++
      requireAtMost value.maximumFileBytes (1024 * 1024) "maximum_file_bytes" ++
      validateRate value.maximumUpdatesPerSecond ++
      requireAtMost value.maximumUpdatesPerSecond 30 "maximum_updates_per_second" ++
      validateKebabSet value.providers "appearance provider"
  | .unknown _ => []

/-- `validate_scope`: the errors it reports under a field. -/
def validateScope (capability : CapabilityId) (scope : CapabilityScope) (field : String) :
    List NormalizationError :=
  (scopeIssues scope ++ issueIf (!scope.matchesCapability capability)
    "scope type does not match capability").map fun message => ⟨field, message⟩

/-- The check of an unknown scope in `validate_capability_scope`. -/
def encodedIssues : CapabilityScope → List String
  | .unknown encoded => issueIf (64 * 1024 < Text.len encoded) "encoded scope exceeds 64 KiB"
  | _ => []

def validateCapabilityScope (capability : CapabilityId) (scope : CapabilityScope) :
    Outcome (List NormalizationError) Unit :=
  let errors := validateScope capability scope "scope" ++
    (encodedIssues scope).map fun message => ⟨"scope", message⟩
  if errors.isEmpty then ok () else err errors

/-! ## What validation gives -/

variable {capability : CapabilityId} {scope : CapabilityScope}

lemma scopeIssues_of_validate (h : validateCapabilityScope capability scope = ok ()) :
    scopeIssues scope = [] ∧ scope.matchesCapability capability = true := by
  rw [validateCapabilityScope] at h
  simp only [List.isEmpty_iff] at h
  split_ifs at h with hnil
  simp only [validateScope, List.append_eq_nil_iff, List.map_eq_nil_iff, issueIf_eq_nil,
    Bool.not_eq_false'] at hnil
  exact hnil.1

/-- Every argument constraint of a valid rule has exactly one matcher. -/
lemma one_matcher_of_dbusArgumentIssues {indices : BTreeSet ℕ}
    {arguments : List DbusArgumentConstraint} (h : dbusArgumentIssues indices arguments = []) :
    ∀ argument ∈ arguments, argument.equalsString.isSome = !argument.oneOfStrings.isSome := by
  induction arguments generalizing indices with
  | nil => simp
  | cons argument arguments ih =>
    simp only [dbusArgumentIssues, List.append_eq_nil_iff, issueIf_eq_nil,
      decide_eq_false_iff_not] at h
    obtain ⟨⟨⟨-, hone⟩, -⟩, hrest⟩ := h
    intro a ha
    rcases List.mem_cons.mp ha with rfl | ha
    · exact Bool.eq_not.mpr hone
    · exact ih hrest a ha

lemma one_matcher_of_validate {scope : DbusCallScope}
    (h : validateCapabilityScope capability (.dbusCall scope) = ok ()) :
    ∀ rule ∈ scope.rules, ∀ argument ∈ rule.arguments,
      argument.equalsString.isSome = !argument.oneOfStrings.isSome := by
  obtain ⟨hissues, -⟩ := scopeIssues_of_validate h
  simp only [scopeIssues, List.append_eq_nil_iff, List.flatMap_eq_nil_iff] at hissues
  intro rule hrule
  exact one_matcher_of_dbusArgumentIssues (hissues.2 rule hrule).2

/-- The hosts of a valid scope for opening URIs are canonical. -/
lemma host_of_validate {scope : UriOpenScope}
    (h : validateCapabilityScope capability (.uriOpen scope) = ok ()) :
    ∀ origin ∈ scope.origins, invalidHttpHost origin.host = false := by
  obtain ⟨hissues, -⟩ := scopeIssues_of_validate h
  simp only [scopeIssues, List.append_eq_nil_iff, List.flatMap_eq_nil_iff] at hissues
  intro origin horigin
  have horigin' := hissues.2 origin horigin
  simp only [validateHttpOrigin, List.append_eq_nil_iff, issueIf_eq_nil] at horigin'
  exact horigin'.1.1.2

end TouchBar.Policy

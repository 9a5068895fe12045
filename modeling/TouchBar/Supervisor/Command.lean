import TouchBar.Lib.Effects
import TouchBar.Policy.Grant
import TouchBar.Policy.Subset
import TouchBar.Rust.Path
import TouchBar.Schema.Commands
import TouchBar.Supervisor.Request

/-!
# Running commands

The broker of `command.run.v1` finds the one rule of its scope that has the submitted
identifier, checks the submitted values against the templates of the rule, and then fills
the templates.  The values go through two maps, one for the check and one for the filling,
and both take a value out by the name that a template gives.

What the kernel answers is a program over a state of its own.
-/

namespace TouchBar.Supervisor

open TouchBar.Rust TouchBar.Lib TouchBar.Policy TouchBar.Schema Outcome

def commandRunOperation : String := "run"

/-! ## Checking the values -/

section Values

variable (parse : String → Option Url)

/-- `valid_relative_path`. -/
def validRelativePath (value : String) : Bool :=
  !Text.isEmpty value && Path.isNormalizedRelative value

/-- The check of a value against the template that names it; `parse` is `Url::parse`. -/
def validateValue : CommandArgument → CommandValue → Outcome BrokerErrorCode Unit
  | .boundedInteger _ minimum maximum, .integer _ value =>
    rejectIf (value.toInt < minimum || maximum < value.toInt) .outOfScope
  | .fixedEnum _ values, .fixedEnum _ value => rejectIf (!values.contains value) .outOfScope
  | .boundedText _ maximumBytes, .text _ value =>
    rejectIf (maximumBytes < Text.len value || Text.containsChar value '\x00') .outOfScope
  | .approvedFile _ _, .approvedFile _ path => rejectIf (!validRelativePath path) .outOfScope
  | .url _ schemes, .url _ value => do
    let url ← okOr (parse value) .invalidRequest
    rejectIf (!schemes.contains url.scheme) .outOfScope
  | _, _ => err .invalidRequest

/-- The values under their names. -/
def valuesByName (values : List CommandValue) : BTreeMap String CommandValue :=
  .ofList (values.map fun value => (value.name, value))

/-- The loop of `validate_values` over the templates: the values that are left. -/
def validateArguments : List CommandArgument → BTreeMap String CommandValue →
    Outcome BrokerErrorCode (BTreeMap String CommandValue)
  | [], values => ok values
  | argument :: arguments, values =>
    match commandArgumentName argument with
    | none => validateArguments arguments values
    | some name => do
      let value ← okOr (values.get name) .invalidRequest
      validateValue parse argument value
      validateArguments arguments (values.remove name)

def validateValues (rule : CommandRule) (values : List CommandValue) :
    Outcome BrokerErrorCode Unit := do
  let values ← validateArguments parse rule.arguments (valuesByName values)
  rejectIf (!values.entries.isEmpty) .invalidRequest

def decodeRuleAndValues (request : BackendRequest) :
    Outcome BrokerErrorCode (CommandRule × CommandRunRequest) := do
  rejectIf (request.capability ≠ .commandRunV1 || request.operation ≠ commandRunOperation)
    .invalidRequest
  match request.authorizedScope with
  | .commandRun scope =>
    let submitted ← mapSchemaError (CommandRunRequest.decode request.payload)
    match scope.commands.toList.filter fun rule => rule.id = submitted.commandId with
    | [] => err .outOfScope
    | [rule] =>
      validateValues parse rule submitted.values
      return (rule, submitted)
    | _ => err .invalidRequest
  | _ => err .invalidRequest

/-- `CommandRunBackend::authorize`. -/
def authorizeCommand (request : BackendRequest) : Outcome BrokerErrorCode Unit :=
  (fun _ => ()) <$> decodeRuleAndValues parse request

end Values

/-! ## What the kernel answers -/

/-- What `fstat` says of a descriptor. -/
structure Metadata where
  mode : ℕ
  links : ℕ
  user : ℕ

/-- What is opened, with the flags of each kind. -/
inductive OpenTarget where
  | executable (path : String)
  | directory (path : String)
  /-- a file below an open directory -/
  | beneath (root : ℕ) (path : String)

/-- The system calls, and `open_bound_mount` of the file brokers. -/
structure CommandSystem (σ : Type) where
  effectiveUser : ℕ
  openDescriptor : OpenTarget → Prog σ BrokerErrorCode ℕ
  metadata : ℕ → Prog σ BrokerErrorCode Metadata
  isCgroup : ℕ → Prog σ BrokerErrorCode Bool
  readLink : ℕ → Prog σ BrokerErrorCode String
  openBoundMount : FilesystemMountBinding → Prog σ BrokerErrorCode ℕ

/-- The bits of the mode that say what kind of file it is. -/
def Metadata.kind (metadata : Metadata) : ℕ := metadata.mode &&& 0o170000

def directoryKind : ℕ := 0o040000

def regularKind : ℕ := 0o100000

section Prepare

variable {σ : Type} (parse : String → Option Url) (system : CommandSystem σ)

/-- `if condition { return Err(code) }`. -/
def rejected (condition : Bool) (code : BrokerErrorCode) : Prog σ BrokerErrorCode Unit :=
  Prog.lift (rejectIf condition code)

def openExecutable (path packageRoot : String) : Prog σ BrokerErrorCode ℕ := do
  rejected (!Path.isNormalizedAbsolute path) .outOfScope
  rejected (Text.containsChar path '\x00') .invalidRequest
  let descriptor ← system.openDescriptor (.executable path)
  let metadata ← system.metadata descriptor
  rejected (metadata.kind ≠ regularKind || metadata.mode &&& 0o111 = 0 ||
    metadata.mode &&& 0o022 ≠ 0 || metadata.links ≠ 1 ||
    (metadata.user ≠ 0 && metadata.user ≠ system.effectiveUser)) .outOfScope
  let resolved ← system.readLink descriptor
  rejected ((Path.components packageRoot).isPrefixOf (Path.components resolved)) .outOfScope
  return descriptor

def openDirectoryAt (path : String) : Prog σ BrokerErrorCode ℕ := do
  rejected (Text.containsChar path '\x00') .invalidRequest
  let descriptor ← system.openDescriptor (.directory path)
  let metadata ← system.metadata descriptor
  rejected (metadata.kind ≠ directoryKind) .outOfScope
  return descriptor

def openApprovedFile (root : ℕ) (path : String) : Prog σ BrokerErrorCode ℕ := do
  rejected (Text.containsChar path '\x00') .invalidRequest
  let descriptor ← system.openDescriptor (.beneath root path)
  let metadata ← system.metadata descriptor
  rejected (metadata.kind ≠ regularKind || metadata.links ≠ 1) .outOfScope
  let cgroup ← system.isCgroup descriptor
  rejected cgroup .outOfScope
  return descriptor

/-! ## Filling the templates -/

structure PreparedCommand where
  rule : CommandRule
  executable : ℕ
  arguments : List String
  approvedFiles : List ℕ
  workingDirectory : Option ℕ

def descriptorPath (descriptor : ℕ) : String := "/proc/self/fd/" ++ toString descriptor

/-- The text of a value that is passed as it is. -/
def textOf : CommandValue → Outcome BrokerErrorCode String
  | .fixedEnum _ value => ok value
  | .text _ value => ok value
  | .url _ value => ok value
  | _ => err .invalidRequest

/-- The argument of a template, and the file that was opened for it. -/
def fillArgument (bindings : GrantBindings) : CommandArgument → CommandValue →
    Prog σ BrokerErrorCode (String × Option ℕ)
  | .boundedInteger _ _ _, .integer _ value => return (toString value.toInt, none)
  | .approvedFile _ mount, .approvedFile _ path => do
    let binding ← Prog.lift (okOr (bindings.filesystemMounts.get mount) .outOfScope)
    let root ← system.openBoundMount binding
    let file ← openApprovedFile system root path
    return (descriptorPath file, some file)
  | .fixedEnum _ _, value => do
    let text ← Prog.lift (textOf value)
    return (text, none)
  | .boundedText _ _, value => do
    let text ← Prog.lift (textOf value)
    return (text, none)
  | .url _ _, value => do
    let text ← Prog.lift (textOf value)
    return (text, none)
  | _, _ => Prog.fail .invalidRequest

/-- The loop of `prepare_command` over the templates: the arguments and the open files. -/
def fillArguments (bindings : GrantBindings) : List CommandArgument →
    BTreeMap String CommandValue → Prog σ BrokerErrorCode (List String × List ℕ)
  | [], _ => return ([], [])
  | .literal value :: templates, values => do
    let (arguments, files) ← fillArguments bindings templates values
    return (value :: arguments, files)
  | template :: templates, values => do
    let name := (commandArgumentName template).getD ""
    let value ← Prog.lift (okOr (values.get name) .invalidRequest)
    let (argument, file) ← fillArgument system bindings template value
    let (arguments, files) ← fillArguments bindings templates (values.remove name)
    return (argument :: arguments, file.toList ++ files)

/-- `rule.working_directory.map(open_directory).transpose()`. -/
def openWorkingDirectory : Option String → Prog σ BrokerErrorCode (Option ℕ)
  | none => return none
  | some path => do
    let descriptor ← openDirectoryAt system path
    return some descriptor

def prepareCommand (bindings : GrantBindings) (packageRoot : String) (request : BackendRequest) :
    Prog σ BrokerErrorCode PreparedCommand := do
  let (rule, submitted) ← Prog.lift (decodeRuleAndValues parse request)
  let executable ← openExecutable system rule.executable packageRoot
  let (arguments, approvedFiles) ←
    fillArguments system bindings rule.arguments (valuesByName submitted.values)
  let workingDirectory ← openWorkingDirectory system rule.workingDirectory
  return ⟨rule, executable, arguments, approvedFiles, workingDirectory⟩

/-- `CommandRunBackend::open` up to the command; `active` is the number of processes that run. -/
def openCommand (active : ℕ) (bindings : GrantBindings) (packageRoot : String)
    (request : BackendRequest) : Prog σ BrokerErrorCode PreparedCommand :=
  match request.authorizedScope with
  | .commandRun scope => do
    rejected (scope.maximumParallelProcesses ≤ active) .quotaExceeded
    prepareCommand parse system bindings packageRoot request
  | _ => Prog.fail .invalidRequest

end Prepare

/-! ## Narrower templates -/

/-- What `command_argument_subset` compares. -/
inductive Narrower : CommandArgument → CommandArgument → Prop
  | literal (value : String) : Narrower (.literal value) (.literal value)
  | boundedInteger (name : String) {minimum maximum minimum' maximum' : ℤ}
      (hminimum : minimum' ≤ minimum) (hmaximum : maximum ≤ maximum') :
      Narrower (.boundedInteger name minimum maximum) (.boundedInteger name minimum' maximum')
  | fixedEnum (name : String) {values values' : BTreeSet String}
      (h : ∀ value ∈ values, value ∈ values') :
      Narrower (.fixedEnum name values) (.fixedEnum name values')
  | boundedText (name : String) {maximumBytes maximumBytes' : ℕ}
      (h : maximumBytes ≤ maximumBytes') :
      Narrower (.boundedText name maximumBytes) (.boundedText name maximumBytes')
  | approvedFile (name mount : String) :
      Narrower (.approvedFile name mount) (.approvedFile name mount)
  | url (name : String) {schemes schemes' : BTreeSet String}
      (h : ∀ scheme ∈ schemes, scheme ∈ schemes') :
      Narrower (.url name schemes) (.url name schemes')

lemma narrower_of_subset {new old : CommandArgument}
    (h : commandArgumentSubset new old = true) : Narrower new old := by
  cases new <;> cases old <;> simp only [commandArgumentSubset, Bool.false_eq_true] at h <;>
    simp only [Bool.and_eq_true, decide_eq_true_eq, BTreeSet.isSubset_iff] at h
  case literal.literal value value' =>
    subst h
    exact .literal value
  case boundedInteger.boundedInteger =>
    obtain ⟨⟨rfl, hminimum⟩, hmaximum⟩ := h
    exact .boundedInteger _ hminimum hmaximum
  case fixedEnum.fixedEnum =>
    obtain ⟨rfl, hvalues⟩ := h
    exact .fixedEnum _ hvalues
  case boundedText.boundedText =>
    obtain ⟨rfl, hbytes⟩ := h
    exact .boundedText _ hbytes
  case approvedFile.approvedFile =>
    obtain ⟨rfl, rfl⟩ := h
    exact .approvedFile _ _
  case url.url =>
    obtain ⟨rfl, hschemes⟩ := h
    exact .url _ hschemes

/-- The templates of a narrower rule are narrower, position by position. -/
lemma narrower_of_ruleSubset {new old : CommandRule} (h : commandRuleSubset new old = true) :
    List.Forall₂ Narrower new.arguments old.arguments :=
  List.Forall₂.imp (fun _ _ => narrower_of_subset) (commandRuleSubset_iff.mp h).2.2.1

section Narrower

variable {σ : Type} {parse : String → Option Url} {system : CommandSystem σ}
  {bindings : GrantBindings} {packageRoot : String} {new old : CommandArgument}
  {news olds : List CommandArgument}

lemma Narrower.name_eq (h : Narrower new old) :
    commandArgumentName new = commandArgumentName old := by
  cases h <;> rfl

/-- A value that a narrower template admits is admitted by the wider one. -/
lemma Narrower.validateValue (h : Narrower new old) {value : CommandValue}
    (hvalue : validateValue parse new value = ok ()) :
    Supervisor.validateValue parse old value = ok () := by
  cases h with
  | literal => exact hvalue
  | approvedFile => exact hvalue
  | boundedInteger name hminimum hmaximum =>
    cases value <;> simp only [Supervisor.validateValue, reduceCtorEq] at hvalue ⊢
    simp only [rejectIf_eq_ok, Bool.or_eq_false_iff, decide_eq_false_iff_not, not_lt] at hvalue ⊢
    exact ⟨hminimum.trans hvalue.1, hvalue.2.trans hmaximum⟩
  | fixedEnum name hvalues =>
    cases value <;> simp only [Supervisor.validateValue, reduceCtorEq] at hvalue ⊢
    simp only [rejectIf_eq_ok, Bool.not_eq_false', BTreeSet.contains_iff] at hvalue ⊢
    exact hvalues _ hvalue
  | boundedText name hbytes =>
    cases value <;> simp only [Supervisor.validateValue, reduceCtorEq] at hvalue ⊢
    simp only [rejectIf_eq_ok, Bool.or_eq_false_iff, decide_eq_false_iff_not, not_lt] at hvalue ⊢
    exact ⟨hvalue.1.trans hbytes, hvalue.2⟩
  | url name hschemes =>
    cases value <;> simp only [Supervisor.validateValue, reduceCtorEq] at hvalue ⊢
    simp only [bind_eq_ok, okOr_eq_ok, rejectIf_eq_ok, Bool.not_eq_false',
      BTreeSet.contains_iff] at hvalue ⊢
    obtain ⟨url, hparse, hscheme⟩ := hvalue
    exact ⟨url, hparse, hschemes _ hscheme⟩

/-- A value fills both in the same way. -/
lemma Narrower.fillArgument_eq (h : Narrower new old) (value : CommandValue) :
    fillArgument system bindings new value = fillArgument system bindings old value := by
  cases h <;> cases value <;> rfl

lemma validateArguments_of_narrower (h : List.Forall₂ Narrower news olds)
    {values rest : BTreeMap String CommandValue}
    (hvalues : validateArguments parse news values = ok rest) :
    validateArguments parse olds values = ok rest := by
  induction h generalizing values with
  | nil => exact hvalues
  | @cons new old news olds hnarrow hrest ih =>
    rw [validateArguments] at hvalues ⊢
    rw [← hnarrow.name_eq]
    cases hname : commandArgumentName new with
    | none =>
      rw [hname] at hvalues
      exact ih hvalues
    | some name =>
      rw [hname] at hvalues
      simp only [bind_eq_ok] at hvalues ⊢
      obtain ⟨value, hvalue, _, hvalid, hmore⟩ := hvalues
      exact ⟨value, hvalue, (), hnarrow.validateValue hvalid, ih hmore⟩

/-- The step of the loop at a template that takes a value. -/
lemma fillArguments_cons {template : CommandArgument} {templates : List CommandArgument}
    {name : String} (hname : commandArgumentName template = some name)
    (values : BTreeMap String CommandValue) :
    fillArguments system bindings (template :: templates) values = (do
      let value ← Prog.lift (okOr (values.get name) .invalidRequest)
      let (argument, file) ← fillArgument system bindings template value
      let (arguments, files) ← fillArguments system bindings templates (values.remove name)
      return (argument :: arguments, file.toList ++ files)) := by
  cases template with
  | literal => cases hname
  | _ =>
    cases hname
    rfl

lemma fillArguments_of_narrower (h : List.Forall₂ Narrower news olds)
    (values : BTreeMap String CommandValue) :
    fillArguments system bindings news values = fillArguments system bindings olds values := by
  induction h generalizing values with
  | nil => rfl
  | @cons new old news olds hnarrow hrest ih =>
    cases hname : commandArgumentName new with
    | none =>
      cases hnarrow with
      | literal value => rw [fillArguments, fillArguments, ih]
      | _ => cases hname
    | some name =>
      rw [fillArguments_cons hname, fillArguments_cons (hnarrow.name_eq.symm.trans hname)]
      simp only [hnarrow.fillArgument_eq, ih]

end Narrower

/-! ## The rule of an identifier -/

section Rule

variable {parse : String → Option Url} {request : BackendRequest} {scope : CommandRunScope}
  {rule : CommandRule} {submitted : CommandRunRequest}

/-- The request as it arrives under a scope. -/
def BackendRequest.withCommands (request : BackendRequest) (scope : CommandRunScope) :
    BackendRequest :=
  { request with authorizedScope := .commandRun scope }

lemma decodeRuleAndValues_eq_ok :
    decodeRuleAndValues parse (request.withCommands scope) = ok (rule, submitted) ↔
      (request.capability = .commandRunV1 ∧ request.operation = commandRunOperation) ∧
      CommandRunRequest.decode request.payload = ok submitted ∧
      scope.commands.toList.filter (fun other => other.id = submitted.commandId) = [rule] ∧
      validateValues parse rule submitted.values = ok () := by
  simp only [decodeRuleAndValues, BackendRequest.withCommands, bind_eq_ok, rejectIf_eq_ok,
    mapSchemaError_eq_ok, Bool.or_eq_false_iff]
  constructor
  · rintro ⟨-, ⟨hcapability, hoperation⟩, decoded, hdecoded, hrules⟩
    refine ⟨⟨not_not.mp (of_decide_eq_false hcapability),
      not_not.mp (of_decide_eq_false hoperation)⟩, ?_⟩
    split at hrules
    · cases hrules
    · next found hfound =>
        simp only [bind_eq_ok, pure_eq, ok.injEq, Prod.mk.injEq] at hrules
        obtain ⟨_, hvalues, rfl, rfl⟩ := hrules
        exact ⟨hdecoded, hfound, hvalues⟩
    · cases hrules
  · rintro ⟨⟨hcapability, hoperation⟩, hdecoded, hfound, hvalues⟩
    refine ⟨(), ⟨decide_eq_false (not_not.mpr hcapability),
      decide_eq_false (not_not.mpr hoperation)⟩, submitted, hdecoded, ?_⟩
    rw [hfound]
    simp [hvalues]

lemma nodup_of_commandRunIssues {ids : BTreeSet String} {commands : List CommandRule}
    (h : commandRunIssues ids commands = []) :
    (∀ command ∈ commands, command.id ∉ ids) ∧ (commands.map CommandRule.id).Nodup := by
  induction commands generalizing ids with
  | nil => simp
  | cons command commands ih =>
    simp only [commandRunIssues, List.append_eq_nil_iff, issueIf_eq_nil, Bool.or_eq_false_iff,
      Bool.not_eq_false'] at h
    obtain ⟨⟨⟨hid, hseen⟩, -⟩, hrest⟩ := h
    rw [if_pos hid] at hrest
    obtain ⟨hfresh, hnodup⟩ := ih hrest
    have hnew : command.id ∉ ids := by
      rw [← BTreeSet.contains_iff, hseen]
      exact Bool.false_ne_true
    refine ⟨?_, ?_⟩
    · intro other hother
      rcases List.mem_cons.mp hother with rfl | hmem
      · exact hnew
      · exact fun hin => hfresh other hmem (BTreeSet.mem_insert.mpr (.inr hin))
    · rw [List.map_cons, List.nodup_cons]
      refine ⟨?_, hnodup⟩
      intro hmem
      obtain ⟨other, hother, heq⟩ := List.mem_map.mp hmem
      exact hfresh other hother (BTreeSet.mem_insert.mpr (.inl heq))

/-- The identifiers of a valid scope are unique. -/
lemma nodup_of_validate
    (h : validateCapabilityScope .commandRunV1 (.commandRun scope) = ok ()) :
    (scope.commands.toList.map CommandRule.id).Nodup := by
  obtain ⟨hissues, -⟩ := scopeIssues_of_validate h
  simp only [scopeIssues, List.append_eq_nil_iff] at hissues
  exact (nodup_of_commandRunIssues hissues.2).2

lemma filter_id_eq {commands : List CommandRule} (h : (commands.map CommandRule.id).Nodup)
    (hrule : rule ∈ commands) :
    commands.filter (fun other => other.id = rule.id) = [rule] := by
  induction commands with
  | nil => cases hrule
  | cons command commands ih =>
    rw [List.map_cons, List.nodup_cons] at h
    obtain ⟨hfresh, hnodup⟩ := h
    rcases List.mem_cons.mp hrule with rfl | hmem
    · rw [List.filter_cons_of_pos (by simp), List.filter_eq_nil_iff.mpr]
      intro other hother
      have hne : other.id ≠ rule.id := fun heq => hfresh (heq ▸ List.mem_map_of_mem hother)
      simpa using hne
    · have hne : command.id ≠ rule.id := fun heq => hfresh (heq ▸ List.mem_map_of_mem hmem)
      rw [List.filter_cons_of_neg (by simpa using hne)]
      exact ih hnodup hmem

/-- The rule that is found under a narrower scope is narrower than the one that is found
under the wider scope, and both admit the values. -/
lemma decodeRuleAndValues_of_isSubsetOf {new old : CommandRunScope}
    (hold : validateCapabilityScope .commandRunV1 (.commandRun old) = ok ())
    (hsub : (CapabilityScope.commandRun new).isSubsetOf (.commandRun old) = true)
    (h : decodeRuleAndValues parse (request.withCommands new) = ok (rule, submitted)) :
    ∃ wider, decodeRuleAndValues parse (request.withCommands old) = ok (wider, submitted) ∧
      commandRuleSubset rule wider = true := by
  obtain ⟨hrequest, hdecoded, hfound, hvalues⟩ := decodeRuleAndValues_eq_ok.mp h
  simp only [CapabilityScope.isSubsetOf, Bool.and_eq_true, coveredBy_iff] at hsub
  have hmem : rule ∈ new.commands.toList.filter fun other => other.id = submitted.commandId := by
    rw [hfound]
    exact List.mem_singleton.mpr rfl
  obtain ⟨hrule, hid⟩ := List.mem_filter.mp hmem
  obtain ⟨wider, hwider, hnarrower⟩ := hsub.2 rule hrule
  refine ⟨wider, decodeRuleAndValues_eq_ok.mpr ⟨hrequest, hdecoded, ?_, ?_⟩, hnarrower⟩
  · -- the identifiers of the wider scope are unique, and the two rules have the same one
    have hsame : wider.id = submitted.commandId :=
      (commandRuleSubset_iff.mp hnarrower).1.symm.trans (of_decide_eq_true hid)
    rw [← hsame]
    exact filter_id_eq (nodup_of_validate hold) hwider
  · simp only [validateValues, bind_eq_ok] at hvalues ⊢
    obtain ⟨left, harguments, hleft⟩ := hvalues
    exact ⟨left, validateArguments_of_narrower (narrower_of_ruleSubset hnarrower) harguments, hleft⟩

end Rule

/-! ## Filled templates -/

/-- What a template may be filled with, where `files` are open. -/
inductive Fills (parse : String → Option Url) (files : List ℕ) : CommandArgument → String → Prop
  | literal (value : String) : Fills parse files (.literal value) value
  | boundedInteger {name : String} {minimum maximum : ℤ} {value : Int64}
      (hminimum : minimum ≤ value.toInt) (hmaximum : value.toInt ≤ maximum) :
      Fills parse files (.boundedInteger name minimum maximum) (toString value.toInt)
  | fixedEnum {name : String} {values : BTreeSet String} {value : String} (h : value ∈ values) :
      Fills parse files (.fixedEnum name values) value
  | boundedText {name : String} {maximumBytes : ℕ} {value : String}
      (hbytes : Text.len value ≤ maximumBytes) (hnul : Text.containsChar value '\x00' = false) :
      Fills parse files (.boundedText name maximumBytes) value
  | approvedFile {name mount : String} {file : ℕ} (h : file ∈ files) :
      Fills parse files (.approvedFile name mount) (descriptorPath file)
  | url {name : String} {schemes : BTreeSet String} {value : String} {url : Url}
      (hparse : parse value = some url) (hscheme : url.scheme ∈ schemes) :
      Fills parse files (.url name schemes) value

section Fills

variable {σ : Type} {parse : String → Option Url} {system : CommandSystem σ} {active : ℕ}
  {bindings : GrantBindings} {packageRoot : String} {request : BackendRequest} {s t : σ}

lemma Fills.mono {files more : List ℕ} (hmore : files ⊆ more) {template : CommandArgument}
    {argument : String} (h : Fills parse files template argument) :
    Fills parse more template argument := by
  cases h with
  | literal => exact .literal _
  | boundedInteger hminimum hmaximum => exact .boundedInteger hminimum hmaximum
  | fixedEnum hvalue => exact .fixedEnum hvalue
  | boundedText hbytes hnul => exact .boundedText hbytes hnul
  | approvedFile hfile => exact .approvedFile (hmore hfile)
  | url hparse hscheme => exact .url hparse hscheme

/-- A value that a template admits fills it. -/
lemma fills_of_fillArgument {template : CommandArgument} {value : CommandValue}
    {argument : String} {file : Option ℕ} (hvalid : validateValue parse template value = ok ())
    (h : fillArgument system bindings template value s = (ok (argument, file), t)) :
    Fills parse file.toList template argument := by
  cases template <;> cases value <;> simp only [validateValue, reduceCtorEq] at hvalid
  case boundedInteger.integer name minimum maximum name' value =>
    simp only [rejectIf_eq_ok, Bool.or_eq_false_iff, decide_eq_false_iff_not, not_lt] at hvalid
    simp only [fillArgument, Prog.pure_eq_ok, Prod.mk.injEq] at h
    obtain ⟨⟨rfl, rfl⟩, -⟩ := h
    exact .boundedInteger hvalid.1 hvalid.2
  case fixedEnum.fixedEnum name values name' value =>
    simp only [rejectIf_eq_ok, Bool.not_eq_false', BTreeSet.contains_iff] at hvalid
    simp only [fillArgument, textOf, Prog.bind_eq_ok, Prog.lift_eq_ok, ok.injEq, Prog.pure_eq_ok,
      Prod.mk.injEq] at h
    obtain ⟨_, _, ⟨rfl, rfl⟩, ⟨rfl, rfl⟩, -⟩ := h
    exact .fixedEnum hvalid
  case boundedText.text name maximumBytes name' value =>
    simp only [rejectIf_eq_ok, Bool.or_eq_false_iff, decide_eq_false_iff_not, not_lt] at hvalid
    simp only [fillArgument, textOf, Prog.bind_eq_ok, Prog.lift_eq_ok, ok.injEq, Prog.pure_eq_ok,
      Prod.mk.injEq] at h
    obtain ⟨_, _, ⟨rfl, rfl⟩, ⟨rfl, rfl⟩, -⟩ := h
    exact .boundedText hvalid.1 hvalid.2
  case approvedFile.approvedFile name mount name' path =>
    simp only [fillArgument, Prog.bind_eq_ok, Prog.pure_eq_ok, Prod.mk.injEq] at h
    obtain ⟨_, _, -, _, _, -, opened, _, -, ⟨rfl, rfl⟩, -⟩ := h
    exact .approvedFile (List.mem_singleton.mpr rfl)
  case url.url name schemes name' value =>
    simp only [bind_eq_ok, okOr_eq_ok, rejectIf_eq_ok, Bool.not_eq_false',
      BTreeSet.contains_iff] at hvalid
    obtain ⟨url, hparse, hscheme⟩ := hvalid
    simp only [fillArgument, textOf, Prog.bind_eq_ok, Prog.lift_eq_ok, ok.injEq, Prog.pure_eq_ok,
      Prod.mk.injEq] at h
    obtain ⟨_, _, ⟨rfl, rfl⟩, ⟨rfl, rfl⟩, -⟩ := h
    exact .url hparse hscheme

/-- The check and the filling take the values out in the same order, so that each template is
filled with the value it was checked against. -/
lemma fills_of_fillArguments {templates : List CommandArgument}
    {values rest : BTreeMap String CommandValue} {arguments : List String} {files : List ℕ}
    (hvalid : validateArguments parse templates values = ok rest)
    (h : fillArguments system bindings templates values s = (ok (arguments, files), t)) :
    List.Forall₂ (Fills parse files) templates arguments := by
  induction templates generalizing values arguments files s t with
  | nil =>
    simp only [fillArguments, Prog.pure_eq_ok, Prod.mk.injEq] at h
    rw [← h.1.1]
    exact .nil
  | cons template templates ih =>
    cases hname : commandArgumentName template with
    | none =>
      cases template <;> cases hname
      next value =>
        rw [validateArguments] at hvalid
        simp only [fillArguments, Prog.bind_eq_ok, Prog.pure_eq_ok, Prod.mk.injEq] at h
        obtain ⟨⟨more, opened⟩, u, hmore, ⟨rfl, rfl⟩, -⟩ := h
        exact .cons (.literal value) (ih hvalid hmore)
    | some name =>
      rw [validateArguments, hname] at hvalid
      simp only [bind_eq_ok, okOr_eq_ok] at hvalid
      obtain ⟨value, hvalue, _, hadmits, hrest⟩ := hvalid
      rw [fillArguments_cons hname] at h
      simp only [Prog.bind_eq_ok, Prog.lift_eq_ok, okOr_eq_ok, Prog.pure_eq_ok,
        Prod.mk.injEq] at h
      obtain ⟨taken, _, ⟨htaken, rfl⟩, ⟨argument, file⟩, _, hfill, ⟨more, opened⟩, _, hmore,
        ⟨rfl, rfl⟩, -⟩ := h
      obtain rfl : value = taken := Option.some.inj (hvalue.symm.trans htaken)
      refine .cons ?_ ?_
      · exact (fills_of_fillArgument hadmits hfill).mono (List.subset_append_left _ _)
      · refine List.Forall₂.imp (fun _ _ hfills => hfills.mono ?_) (ih hrest hmore)
        exact List.subset_append_right _ _

lemma rule_mem_of_prepareCommand {scope : CommandRunScope} {prepared : PreparedCommand}
    (h : prepareCommand parse system bindings packageRoot (request.withCommands scope) s =
      (ok prepared, t)) : prepared.rule ∈ scope.commands := by
  simp only [prepareCommand, Prog.bind_eq_ok, Prog.lift_eq_ok, Prog.pure_eq_ok] at h
  obtain ⟨⟨rule, submitted⟩, _, ⟨hdecode, rfl⟩, _, _, -, _, _, -, _, _, -, rfl, -⟩ := h
  obtain ⟨-, -, hfound, -⟩ := decodeRuleAndValues_eq_ok.mp hdecode
  have hmem : rule ∈ scope.commands.toList.filter fun other => other.id = submitted.commandId := by
    rw [hfound]
    exact List.mem_singleton.mpr rfl
  exact (List.mem_filter.mp hmem).1

/-- Under any scope the arguments fill the templates of the rule that was found. -/
lemma fills_of_prepareCommand {scope : CommandRunScope} {prepared : PreparedCommand}
    (h : prepareCommand parse system bindings packageRoot (request.withCommands scope) s =
      (ok prepared, t)) :
    List.Forall₂ (Fills parse prepared.approvedFiles) prepared.rule.arguments
      prepared.arguments := by
  simp only [prepareCommand, Prog.bind_eq_ok, Prog.lift_eq_ok, Prog.pure_eq_ok] at h
  obtain ⟨⟨rule, submitted⟩, _, ⟨hdecode, rfl⟩, executable, _, -, ⟨arguments, files⟩, _, hfill,
    directory, _, -, rfl, -⟩ := h
  obtain ⟨-, -, -, hvalues⟩ := decodeRuleAndValues_eq_ok.mp hdecode
  simp only [validateValues, bind_eq_ok] at hvalues
  obtain ⟨left, harguments, -⟩ := hvalues
  exact fills_of_fillArguments harguments hfill

end Fills

/-! ## Narrowing -/

/-- What two prepared commands share, and the limits of the first are within those of the
second. -/
structure PreparedCommand.Within (narrow wide : PreparedCommand) : Prop where
  id : narrow.rule.id = wide.rule.id
  executable : narrow.executable = wide.executable
  arguments : narrow.arguments = wide.arguments
  approvedFiles : narrow.approvedFiles = wide.approvedFiles
  environment : narrow.rule.environment = wide.rule.environment
  workingDirectory : narrow.workingDirectory = wide.workingDirectory
  output : narrow.rule.maximumOutputBytes ≤ wide.rule.maximumOutputBytes
  timeout : narrow.rule.timeoutMilliseconds ≤ wide.rule.timeoutMilliseconds

section Narrowing

variable {σ : Type} {parse : String → Option Url} {system : CommandSystem σ} {active : ℕ}
  {bindings : GrantBindings} {packageRoot : String} {request : BackendRequest} {s t : σ}
  {new old : CommandRunScope} {prepared : PreparedCommand}

lemma prepareCommand_of_isSubsetOf
    (hold : validateCapabilityScope .commandRunV1 (.commandRun old) = ok ())
    (hsub : (CapabilityScope.commandRun new).isSubsetOf (.commandRun old) = true)
    (h : prepareCommand parse system bindings packageRoot (request.withCommands new) s =
      (ok prepared, t)) :
    ∃ wide, prepareCommand parse system bindings packageRoot (request.withCommands old) s =
      (ok wide, t) ∧ prepared.Within wide := by
  simp only [prepareCommand, Prog.bind_eq_ok, Prog.lift_eq_ok, Prog.pure_eq_ok] at h
  obtain ⟨⟨rule, submitted⟩, _, ⟨hdecode, rfl⟩, executable, opened, hexecutable,
    ⟨arguments, files⟩, filled, hfill, directory, _, hdirectory, rfl, rfl⟩ := h
  obtain ⟨wider, hwider, hnarrower⟩ := decodeRuleAndValues_of_isSubsetOf hold hsub hdecode
  obtain ⟨hid, hpath, -, henvironment, hworking, houtput, htimeout⟩ :=
    commandRuleSubset_iff.mp hnarrower
  refine ⟨⟨wider, executable, arguments, files, directory⟩, ?_,
    ⟨hid, rfl, rfl, rfl, henvironment, rfl, houtput, htimeout⟩⟩
  simp only [prepareCommand, Prog.bind_eq_ok, Prog.lift_eq_ok, Prog.pure_eq_ok]
  refine ⟨(wider, submitted), _, ⟨hwider, rfl⟩, executable, opened, ?_, (arguments, files), filled,
    ?_, directory, t, ?_, rfl, rfl⟩
  · rw [← hpath]
    exact hexecutable
  · rw [← fillArguments_of_narrower (narrower_of_ruleSubset hnarrower)]
    exact hfill
  · rw [← hworking]
    exact hdirectory

lemma authorizeCommand_eq_ok :
    authorizeCommand parse request = ok () ↔
      ∃ found, decodeRuleAndValues parse request = ok found := by
  rw [authorizeCommand]
  cases decodeRuleAndValues parse request <;> simp

lemma openCommand_eq_ok {scope : CommandRunScope} :
    openCommand parse system active bindings packageRoot (request.withCommands scope) s =
        (ok prepared, t) ↔
      active < scope.maximumParallelProcesses ∧
      prepareCommand parse system bindings packageRoot (request.withCommands scope) s =
        (ok prepared, t) := by
  have hunder : (request.withCommands scope).authorizedScope = .commandRun scope := rfl
  simp only [openCommand, hunder, Prog.bind_eq_ok, rejected, Prog.lift_eq_ok, rejectIf_eq_ok,
    decide_eq_false_iff_not, not_le]
  constructor
  · rintro ⟨_, _, ⟨hactive, rfl⟩, hprepare⟩
    exact ⟨hactive, hprepare⟩
  · rintro ⟨hactive, hprepare⟩
    exact ⟨(), s, ⟨hactive, rfl⟩, hprepare⟩

/-- A request that is accepted under a narrower scope is accepted under the wider one, and
runs the same command under limits that are no smaller.  Under each scope the arguments that
are passed are those of the rule, filled position by position. -/
theorem command_narrowing (parse : String → Option Url)
    (hold : validateCapabilityScope .commandRunV1 (.commandRun old) = ok ())
    (hsub : (CapabilityScope.commandRun new).isSubsetOf (.commandRun old) = true) :
    new.maximumParallelProcesses ≤ old.maximumParallelProcesses ∧
    (∀ request : BackendRequest, authorizeCommand parse (request.withCommands new) = ok () →
      authorizeCommand parse (request.withCommands old) = ok ()) ∧
    (∀ (σ : Type) (system : CommandSystem σ) (active : ℕ) (bindings : GrantBindings)
      (packageRoot : String) (request : BackendRequest) (s t : σ) (prepared : PreparedCommand),
      openCommand parse system active bindings packageRoot (request.withCommands new) s =
          (ok prepared, t) →
        ∃ wide, openCommand parse system active bindings packageRoot (request.withCommands old) s =
          (ok wide, t) ∧ prepared.Within wide) ∧
    (∀ (σ : Type) (system : CommandSystem σ) (active : ℕ) (bindings : GrantBindings)
      (packageRoot : String) (scope : CommandRunScope) (request : BackendRequest) (s t : σ)
      (prepared : PreparedCommand),
      openCommand parse system active bindings packageRoot (request.withCommands scope) s =
          (ok prepared, t) →
        prepared.rule ∈ scope.commands ∧
        List.Forall₂ (Fills parse prepared.approvedFiles) prepared.rule.arguments
          prepared.arguments) := by
  have hparallel : new.maximumParallelProcesses ≤ old.maximumParallelProcesses := by
    simp only [CapabilityScope.isSubsetOf, Bool.and_eq_true, decide_eq_true_eq] at hsub
    exact hsub.1
  refine ⟨hparallel, ?_, ?_, ?_⟩
  · intro request haccepted
    obtain ⟨⟨rule, submitted⟩, hdecode⟩ := authorizeCommand_eq_ok.mp haccepted
    obtain ⟨wider, hwider, -⟩ := decodeRuleAndValues_of_isSubsetOf hold hsub hdecode
    exact authorizeCommand_eq_ok.mpr ⟨_, hwider⟩
  · intro σ system active bindings packageRoot request s t prepared hopen
    obtain ⟨hactive, hprepare⟩ := openCommand_eq_ok.mp hopen
    obtain ⟨wide, hwide, hwithin⟩ := prepareCommand_of_isSubsetOf hold hsub hprepare
    exact ⟨wide, openCommand_eq_ok.mpr ⟨by omega, hwide⟩, hwithin⟩
  · intro σ system active bindings packageRoot scope request s t prepared hopen
    obtain ⟨-, hprepare⟩ := openCommand_eq_ok.mp hopen
    exact ⟨rule_mem_of_prepareCommand hprepare, fills_of_prepareCommand hprepare⟩

/-- The rule of a scope that reads a directory, with a bounded number. -/
def listRule (maximum : ℤ) (maximumOutputBytes : ℕ) : CommandRule where
  id := "list"
  executable := "/usr/bin/ls"
  arguments := [.literal "-l", .boundedInteger "depth" 0 maximum]
  environment := .empty
  workingDirectory := none
  maximumOutputBytes := maximumOutputBytes
  timeoutMilliseconds := 2000

def listScope (maximum : ℤ) (maximumOutputBytes maximumParallelProcesses : ℕ) : CommandRunScope :=
  ⟨.ofList [listRule maximum maximumOutputBytes], maximumParallelProcesses⟩

/-- A kernel in which each file is a regular file of the superuser. -/
def plainSystem : CommandSystem Unit where
  effectiveUser := 1000
  openDescriptor _ := return 5
  metadata _ := return ⟨0o100755, 1, 0⟩
  isCgroup _ := return false
  readLink _ := return "/usr/bin/ls"
  openBoundMount _ := return 4

def listRequest : BackendRequest where
  capability := .commandRunV1
  authorizedScope := .commandRun (listScope 3 1024 1)
  activation := none
  operation := "run"
  payload := CommandRunRequest.magic ++ Encoder.text "list" ++ Encoder.u16 1 ++
    (CommandValue.integer "depth" 2).write

def listPrepared (rule : CommandRule) : PreparedCommand := ⟨rule, 5, ["-l", "2"], [], none⟩

theorem command_narrowing_list :
    validateCapabilityScope .commandRunV1 (.commandRun (listScope 9 4096 2)) = ok () ∧
    (CapabilityScope.commandRun (listScope 3 1024 1)).isSubsetOf
      (.commandRun (listScope 9 4096 2)) = true ∧
    openCommand (fun _ => none) plainSystem 0 .default "/opt/plugin"
      (listRequest.withCommands (listScope 3 1024 1)) () =
      (ok (listPrepared (listRule 3 1024)), ()) ∧
    ∃ wide, openCommand (fun _ => none) plainSystem 0 .default "/opt/plugin"
      (listRequest.withCommands (listScope 9 4096 2)) () = (ok wide, ()) ∧
      (listPrepared (listRule 3 1024)).Within wide := by
  have hold : validateCapabilityScope .commandRunV1 (.commandRun (listScope 9 4096 2)) = ok () := by
    decide
  have hsub : (CapabilityScope.commandRun (listScope 3 1024 1)).isSubsetOf
      (.commandRun (listScope 9 4096 2)) = true := by
    decide
  have hopen : openCommand (fun _ => none) plainSystem 0 .default "/opt/plugin"
      (listRequest.withCommands (listScope 3 1024 1)) () =
      (ok (listPrepared (listRule 3 1024)), ()) := by
    rfl
  exact ⟨hold, hsub, hopen, (command_narrowing (fun _ => none) hold hsub).2.2.1 Unit plainSystem 0
    .default "/opt/plugin" listRequest () () _ hopen⟩

end Narrowing

end TouchBar.Supervisor

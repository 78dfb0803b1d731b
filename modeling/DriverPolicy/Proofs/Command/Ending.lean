import DriverPolicy.Command.Run
import DriverPolicy.Proofs.Logging.Losses

/-!
# How runs end

A run that is asked for JSON shows an error as one JSON object, with the name of the code that it
ends with, and prints nothing else. In front of the object the error output has what is logged: lines,
and a report of each record that is lost because its line cannot be written to a log file. That
happens only when a log file is rotated.

A configuration that cannot be used is the one exception: it is reported before the command's own
arguments are looked at, and always as text.
-/

namespace DriverPolicy

namespace RunState

/-- Nothing was printed, and the error output has nothing but what was logged. -/
structure Quiet (state : RunState) : Prop where
  /-- The standard output is empty. -/
  printed : state.printed = ""
  /-- There is no error message. -/
  errorMessage : state.errorMessage = ""
  /-- What was logged is as it should be. -/
  log : state.log.IsSound

/-- Nothing was printed, and logging has not been configured yet. -/
structure Unconfigured (state : RunState) : Prop extends Quiet state where
  /-- The root logger is as it was at the start. -/
  root : state.log.root = .fresh

/-- A run ends with an error as a JSON object that has the name of a code. It is behind what was
logged, and nothing was printed. -/
def EndsInJsonError (state : RunState) (code : ExitCode) : Prop :=
  state.printed = "" ∧ ∃ message, state.errors =
    state.log.output.errors ++ ((errorObject message code).compact ++ "\n")

/-- An error is shown as one JSON object with the name of a code, behind log lines and without any
other output. -/
def ShowsJsonError (state : RunState) (code : ExitCode) : Prop :=
  state.EndsInJsonError code ∧ state.log.output.HasOnlyLines

end RunState

/-- If a run ends with a code, then its error is a JSON object unless the configuration cannot be
used, and what was logged is as it should be. -/
def RunEnd.IsShown (reason : RunEnd) (state : RunState) : Prop :=
  ∀ code, reason = .exit code →
    state.log.IsSound ∧ (state.EndsInJsonError code ↔ code ≠ .configError)

/-- An error object begins with a brace. -/
theorem head_errorObject (message : String) (code : ExitCode) :
    (errorObject message code).compact.toList.head? = some '\x7b' := by
  simp [errorObject, Json.compact, Json.compactOnto, Json.compactFields]

/-- An error text begins with a letter. -/
theorem head_errorText (message : String) (code : ExitCode) :
    (errorText message code false).toList.head? = some 'E' := by
  have hletter : controlLength ('E' :: ("rror: ".toList ++ message.toList ++ ['\n'])) = 0 :=
    controlLength_of_ne (by decide)
  have htext : (s!"Error: {message}\n").toList =
      'E' :: ("rror: ".toList ++ message.toList ++ ['\n']) := by
    simp only [String.toList_append]
    rfl
  rw [errorText, if_neg Bool.false_ne_true, withoutControls, String.toList_ofList, htext]
  simp only [outsideControls, hletter, List.head?_cons]

/-- Only a configuration that cannot be used ends a run with its code. -/
theorem ResolutionFault.exitCode_ne_configError (fault : ResolutionFault) :
    fault.exitCode ≠ .configError := by
  cases fault with
  | expression fault =>
    cases h : fault.defect <;> simp [exitCode, Defect.exitCode, h]
  | _ => simp [exitCode]

namespace Running

variable {α β : Type}

/-- Work that starts in a state of a kind goes on in one of another kind, or ends as it should. -/
def Meets (P Q : RunState → Prop) (work : Running α) : Prop :=
  ∀ state, P state →
    match work.run.run state with
    | (.ok _, next) => Q next
    | (.error reason, next) => reason.IsShown next

namespace Meets

variable {P Q R : RunState → Prop}

/-- Work goes on where the work before it has left off. -/
theorem bind {work : Running α} {next : α → Running β} (h : Meets P R work)
    (hnext : ∀ a, Meets R Q (next a)) : Meets P Q (work >>= next) := by
  intro state hstate
  have hwork := h state hstate
  rw [run_bind]
  match hrun : work.run.run state with
  | (.ok a, after) =>
    rw [hrun] at hwork
    exact hnext a after hwork
  | (.error reason, after) =>
    rw [hrun] at hwork
    exact hwork

/-- Doing nothing leaves a state as it is. -/
theorem pure (a : α) : Meets P P (Pure.pure a : Running α) := fun _ h => h

/-- An end without a code is no matter here. -/
theorem throw {reason : RunEnd} (h : ∀ code, reason ≠ .exit code) :
    Meets P Q (throw reason : Running α) :=
  fun _ _ code heq => absurd heq (h code)

/-- Nothing comes after an end. -/
theorem throw_bind {reason : RunEnd} {next : α → Running β} (h : ∀ code, reason ≠ .exit code) :
    Meets P Q (MonadExcept.throw reason >>= next) :=
  fun _ _ code heq => absurd heq (h code)

/-- A JSON error with any code but that of a configuration is shown. -/
theorem stop {message : String} {code : ExitCode} (hcode : code ≠ .configError) :
    Meets RunState.Quiet Q
      (Running.stop ((errorObject message code).compact ++ "\n") code : Running α) := by
  rintro state hstate _ ⟨⟩
  exact ⟨hstate.log, iff_of_true ⟨hstate.printed, message, rfl⟩ hcode⟩

/-- Ending with an error as JSON. -/
theorem fail (message : String) {code : ExitCode} (hcode : code ≠ .configError) :
    Meets RunState.Quiet Q (Running.fail message code true : Running α) :=
  stop hcode

/-- Ending as JSON because an expression does not resolve. -/
theorem failResolving (fault : ResolutionFault) :
    Meets RunState.Quiet Q (Running.failResolving fault true : Running α) :=
  stop fault.exitCode_ne_configError

/-- A configuration that cannot be used is reported as text. -/
theorem fail_configError (message : String) :
    Meets RunState.Unconfigured Q (Running.fail message .configError false : Running α) := by
  rintro state hstate _ ⟨⟩
  refine ⟨hstate.log, iff_of_false ?_ fun h => h rfl⟩
  rintro ⟨-, other, hshown⟩
  have htext : (errorText message .configError false).toList =
      (errorObject other .configError).compact.toList ++ ['\n'] := by
    simpa [RunState.errors, String.toList_append] using congrArg String.toList hshown
  have hhead := congrArg List.head? htext
  simp [head_errorText, head_errorObject] at hhead

/-- Logging leaves a quiet state. -/
theorem logAll (now : Instant) (entries : List Entry) :
    Meets RunState.Quiet RunState.Quiet (Running.logAll now entries) :=
  fun _ h => ⟨h.printed, h.errorMessage, h.log.reportAll now entries⟩

/-- Logging configures nothing. -/
theorem logAll_unconfigured (now : Instant) (entries : List Entry) :
    Meets RunState.Unconfigured RunState.Unconfigured (Running.logAll now entries) :=
  fun state h => ⟨logAll now entries state h.toQuiet, (LogState.root_reportAll ..).trans h.root⟩

/-- A result that cannot be displayed is an error as JSON. -/
theorem checkDisplay (surroundings : Surroundings) (display : Display) :
    Meets RunState.Quiet RunState.Quiet (Running.checkDisplay surroundings display true) := by
  rw [Running.checkDisplay]
  split
  · exact pure ()
  · exact fail _ (by decide)

/-- Printing a value ends well. -/
theorem echoJson (value : Json) : Meets P (fun _ => True) (Running.echoJson value) :=
  fun _ _ => trivial

end Meets

end Running

open Running

/-- Getting the configuration configures nothing, or it cannot be used. -/
theorem Running.meets_configuration (surroundings : Surroundings) (options : GlobalOptions) :
    Meets RunState.Unconfigured RunState.Unconfigured
      (Running.configuration surroundings options) := by
  rw [Running.configuration]
  refine .bind (.logAll_unconfigured _ _) fun _ => ?_
  split
  · exact .pure _
  · split
    · exact .fail_configError _
    · exact .fail_configError _
    · exact .fail_configError _
    · exact .fail_configError _
    · exact .throw nofun

/-- A configuration that cannot be installed ends the run without a code. -/
theorem Running.run_configureLog_of_error {surroundings : Surroundings} {config : Config}
    {state : RunState} {refused : RefusedConfig}
    (h : state.log.configure surroundings.environment.homes config.logging surroundings.now =
      .error refused) :
    (Running.configureLog surroundings config).run.run state =
      (.error (.failure (.config refused.failure)),
        { state with log := state.log.withFiles refused.files }) := by
  rw [Running.configureLog, run_get_bind]
  dsimp only
  rw [h]
  rfl

/-- Over the log that a configuration installs, one event is reported. -/
theorem Running.run_configureLog_of_ok {surroundings : Surroundings} {config : Config}
    {state : RunState} {log : LogState}
    (h : state.log.configure surroundings.environment.homes config.logging surroundings.now =
      .ok log) :
    (Running.configureLog surroundings config).run.run state =
      (Running.logAll surroundings.now
        [⟨.clear, .starting config.namespaceName config.logging.level⟩]).run.run
          { state with log } := by
  rw [Running.configureLog, run_get_bind]
  dsimp only
  rw [h]
  rfl

/-- Configuring the root logger leaves a quiet state. -/
theorem Running.meets_configureLog (surroundings : Surroundings) (config : Config) :
    Meets RunState.Unconfigured RunState.Quiet (Running.configureLog surroundings config) := by
  intro state hstate
  cases hlog : state.log.configure surroundings.environment.homes config.logging
      surroundings.now with
  | error refused =>
    rw [run_configureLog_of_error hlog]
    intro code hcode
    contradiction
  | ok log =>
    rw [run_configureLog_of_ok hlog]
    exact Meets.logAll _ _ { state with log }
      ⟨hstate.printed, hstate.errorMessage, hstate.log.configure hstate.root hlog⟩

namespace Command

/-- Parsing an expression ends as it should. -/
theorem meets_runParse (surroundings : Surroundings) (expression : String) :
    Meets RunState.Quiet (fun _ => True) (runParse surroundings expression true) := by
  rw [runParse]
  split
  · exact .failResolving _
  · exact .throw nofun
  · exact .bind (.logAll _ _) fun _ => .bind (.checkDisplay _ _) fun _ => .echoJson _

/-- The delays of a policy are computed quietly, or no code stands for why they are not. -/
theorem meets_delaysOf (policy : Policy) (count : Option Nat) :
    Meets RunState.Quiet RunState.Quiet (delaysOf policy count) := by
  unfold delaysOf
  split
  · split
    · exact .pure _
    · exact .throw nofun
  · exact .pure _

/-- Resolving an expression ends as it should. -/
theorem meets_runResolve (surroundings : Surroundings) (namespaceName : String) (family : Family)
    (expression : String) (count : Option Nat) :
    Meets RunState.Quiet (fun _ => True)
      (runResolve surroundings namespaceName family expression true count) := by
  rw [runResolve]
  split
  · exact .throw_bind nofun
  · dsimp only
    generalize (Resolver.resolve _ expression).start = outcome
    obtain ⟨result, entries⟩ := outcome
    refine .bind (.logAll _ _) fun _ => ?_
    split
    · exact .failResolving _
    · exact .throw nofun
    · exact .bind (meets_delaysOf _ _) fun _ => .bind (.checkDisplay _ _) fun _ => .echoJson _

/-- Listing policies ends well. -/
theorem meets_runPolicies (registry : Registry) (family : Option Family) :
    Meets RunState.Quiet (fun _ => True) (runPolicies registry family true) :=
  .echoJson _

/-- Whether a command is asked for JSON. -/
def json : Command → Bool
  | parse _ json => json
  | resolve _ _ json _ => json
  | policies _ json => json

/-- The arguments of the first command. -/
theorem json_of_readParse {scanned : ScannedArguments} {command : Command}
    (h : readParse scanned = .ok command) : command.json = scanned.has "--json" := by
  unfold readParse at h
  split at h
  · contradiction
  · obtain ⟨-, -, hcommand⟩ := bind_eq_ok_iff.mp h
    rw [← Except.ok.inj hcommand, json]

/-- The arguments of the second command. -/
theorem json_of_readResolve {scanned : ScannedArguments} {command : Command}
    (h : readResolve scanned = .ok command) : command.json = scanned.has "--json" := by
  unfold readResolve at h
  dsimp only at h
  -- the count is read or not, and then the other arguments
  split at h
  all_goals
    obtain ⟨count, -, hothers⟩ := bind_eq_ok_iff.mp h
    split at hothers
    · contradiction
    · obtain ⟨family, -, hrest⟩ := bind_eq_ok_iff.mp hothers
      split at hrest
      · contradiction
      · obtain ⟨-, -, hcommand⟩ := bind_eq_ok_iff.mp hrest
        rw [← Except.ok.inj hcommand, json]

/-- The arguments of the third command. -/
theorem json_of_readPolicies {scanned : ScannedArguments} {command : Command}
    (h : readPolicies scanned = .ok command) : command.json = scanned.has "--json" := by
  unfold readPolicies at h
  dsimp only at h
  split at h
  all_goals
    obtain ⟨family, -, hothers⟩ := bind_eq_ok_iff.mp h
    obtain ⟨-, -, hcommand⟩ := bind_eq_ok_iff.mp hothers
    rw [← Except.ok.inj hcommand, json]

/-- A command is asked for JSON if the option for it was given. -/
theorem json_of_read {name : CommandName} {arguments : List String} {command : Command}
    {scanned : ScannedArguments} (hread : read name arguments = .ok command)
    (hscan : ScannedArguments.scan name.rules true arguments = .ok scanned) :
    command.json = scanned.has "--json" := by
  obtain ⟨given, hgiven, hcommand⟩ := bind_eq_ok_iff.mp hread
  obtain rfl := Except.ok.inj (hscan.symm.trans (mapError_eq_ok_iff.mp hgiven))
  split at hcommand
  · contradiction
  · cases name with
    | parse => exact json_of_readParse (mapError_eq_ok_iff.mp hcommand)
    | resolve => exact json_of_readResolve (mapError_eq_ok_iff.mp hcommand)
    | policies => exact json_of_readPolicies (mapError_eq_ok_iff.mp hcommand)

/-- A command that is asked for JSON ends as it should. -/
theorem meets_run (surroundings : Surroundings) (namespaceName : String) {command : Command}
    (hjson : command.json = true) :
    Meets RunState.Quiet (fun _ => True) (command.run surroundings namespaceName) := by
  cases command with
  | parse expression json =>
    obtain rfl : json = true := hjson
    exact meets_runParse surroundings expression
  | resolve family expression json count =>
    obtain rfl : json = true := hjson
    exact meets_runResolve surroundings namespaceName family expression count
  | policies family json =>
    obtain rfl : json = true := hjson
    exact meets_runPolicies .standard family

end Command

/-- A command line whose command is given the option for JSON ends as it should. -/
theorem meets_runArguments {surroundings : Surroundings} {arguments : List String}
    {line : CommandLine} {scanned : ScannedArguments}
    (hline : CommandLine.read surroundings.files arguments = .ok line)
    (hscan : ScannedArguments.scan line.name.rules true line.arguments = .ok scanned)
    (hjson : scanned.has "--json" = true) :
    Meets RunState.Unconfigured (fun _ => True) (runArguments surroundings arguments) := by
  rw [runArguments, hline]
  refine (?_ : Meets _ _ (Running.configuration surroundings line.options >>= _))
  refine .bind (meets_configuration _ _) fun config => .bind (meets_configureLog _ _) fun _ => ?_
  cases hread : Command.read line.name line.arguments with
  | error reason =>
    have hend : ∀ code, RunEnd.line reason ≠ .exit code := nofun
    exact Meets.throw_bind hend
  | ok command =>
    exact Command.meets_run surroundings _ ((Command.json_of_read hread hscan).trans hjson)

/-- A run starts without any output. -/
theorem RunState.unconfigured_start (surroundings : Surroundings) :
    (start surroundings).Unconfigured :=
  ⟨⟨rfl, rfl, LogState.isSound_fresh rfl⟩, rfl⟩

/-- A run whose command is given the option for JSON and that ends with the code of a failure ends in
one JSON object with the name of the code, behind what was logged and without any other output, if
and only if the code is not that of a configuration that cannot be used. The object is behind nothing
but log lines if and only if, besides, no record was lost. A record is only lost because its line
cannot be written to a log file, and none is lost if no log file is rotated. -/
theorem showsJsonError_iff (surroundings : Surroundings) (arguments : List String)
    (line : CommandLine) (scanned : ScannedArguments) (code : ExitCode) (state : RunState)
    (hline : CommandLine.read surroundings.files arguments = .ok line)
    (hscan : ScannedArguments.scan line.name.rules true line.arguments = .ok scanned)
    (hjson : scanned.has "--json" = true)
    (hend : outcomeOf surroundings arguments = (.exit code, state)) (hcode : code ≠ .success) :
    (state.EndsInJsonError code ↔ code ≠ .configError) ∧
    (state.ShowsJsonError code ↔ code ≠ .configError ∧ state.log.output.lost = []) ∧
    (∀ lost ∈ state.log.output.lost, ∃ fault, lost.reason = .writing fault) ∧
    (state.log.root.NeverRotates → state.log.output.lost = []) := by
  have h := meets_runArguments hline hscan hjson (.start surroundings)
    (RunState.unconfigured_start _)
  rw [outcomeOf] at hend
  match hrun : (runArguments surroundings arguments).run.run (.start surroundings) with
  | (.ok value, last) =>
    rw [hrun] at hend
    obtain ⟨⟨⟩, -⟩ := Prod.mk.inj hend
    contradiction
  | (.error reason, last) =>
    rw [hrun] at hend h
    obtain ⟨rfl, rfl⟩ := Prod.mk.inj hend
    obtain ⟨hlog, hshown⟩ := h code rfl
    exact ⟨hshown, and_congr hshown hlog.logged.hasOnlyLines_iff, hlog.unwritten, hlog.kept⟩

/-- An empty expression is an error as JSON. -/
theorem showsJsonError_empty :
    (outcomeOf ⟨⟨[], []⟩, ⟨[], "", ⟨⟨.root, []⟩, []⟩⟩, ⟨0⟩, none, ⟨fun _ => true, fun _ => ⟨"", ""⟩⟩⟩
      ["parse", "", "--json"]).2.ShowsJsonError .malformedExpression :=
  (showsJsonError_iff
    ⟨⟨[], []⟩, ⟨[], "", ⟨⟨.root, []⟩, []⟩⟩, ⟨0⟩, none, ⟨fun _ => true, fun _ => ⟨"", ""⟩⟩⟩
    ["parse", "", "--json"]
    ⟨.unset, .parse, ["", "--json"]⟩ ⟨[⟨"--json", none⟩], [""]⟩ .malformedExpression _
    (by decide +kernel) (by decide +kernel) (by decide) (Prod.ext (by decide +kernel) rfl)
    (by decide)).2.1.mpr ⟨by decide, by decide +kernel⟩

/-- With a directory in the way of its first backup a log file cannot be rotated, and a record is
lost. -/
example :
    (outcomeOf ⟨⟨[(["x.log.1"], .directory)], []⟩,
      ⟨[("LOG_FILE", "/x.log"), ("LOG_LEVEL", "debug"), ("LOG_MAX_BYTES", "1"),
        ("LOG_BACKUP_COUNT", "1")], "", ⟨⟨.root, []⟩, []⟩⟩,
      ⟨0⟩, none, ⟨fun _ => true, fun _ => ⟨"", ""⟩⟩⟩
      ["parse", "", "--json"]).2.log.output.lost.map (·.reason) =
        [.writing (.file ⟨.isADirectory, "/x.log.1"⟩)] := by
  decide +kernel

/-- A namespace that is no dotted name is an error as text, though the command is given the option
for JSON. -/
theorem configError_as_text :
    let surroundings : Surroundings :=
      ⟨⟨[], []⟩, ⟨[], "", ⟨⟨.root, []⟩, []⟩⟩, ⟨0⟩, none, ⟨fun _ => true, fun _ => ⟨"", ""⟩⟩⟩
    let ended := outcomeOf surroundings ["--namespace", "1acme", "policies", "--json"]
    CommandLine.read surroundings.files ["--namespace", "1acme", "policies", "--json"] =
        .ok ⟨{ GlobalOptions.unset with namespaceName := "1acme" }, .policies, ["--json"]⟩ ∧
      ScannedArguments.scan CommandName.policies.rules true ["--json"] =
        .ok ⟨[⟨"--json", none⟩], []⟩ ∧
      ended.1 = .exit .configError ∧
      ended.2.errors = "Error: Invalid configuration: default_namespace must be a dotted name, " ++
        "got '1acme'\n" ∧
      ended.2.log.output.lost = [] ∧
      ¬ ended.2.EndsInJsonError .configError := by
  intro surroundings ended
  have hlogged : ended.2.log.output.errors = "" := by decide +kernel
  have herrors : ended.2.errors = "Error: Invalid configuration: default_namespace must be " ++
      "a dotted name, got '1acme'\n" := by decide +kernel
  refine ⟨by decide +kernel, by decide +kernel, by decide +kernel, herrors, by decide +kernel, ?_⟩
  rintro ⟨-, message, hshown⟩
  have hhead := congrArg (fun text => text.toList.head?) hshown
  simp [herrors, hlogged, List.head?_append, head_errorObject] at hhead

end DriverPolicy

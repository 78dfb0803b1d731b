import DriverPolicy.Proofs.Logging.Installation
import Mathlib.Data.List.Induction
import Mathlib.Data.List.Nodup

/-!
# Sessions with the root logger

In a session the root logger is configured again and again, while other code adds and removes
handlers of its own, records are logged, and files change in any way. After every step its handlers
are those from elsewhere and those that the last configuration installed; each handler of a
configuration before that was removed and closed once.
-/

namespace DriverPolicy

/-- What can happen to the root logger. Only configurations in range are installed. -/
inductive LogStep where
  | configure (config : LoggingConfig) (inRange : config.check = .ok ()) (homes : Homes)
      (now : Instant)
  | addForeign (name : String)
  | removeForeign (name : String)
  | log (context : Context) (record : LogRecord)
  | changeFiles (files : FileTree)

namespace LogStep

/-- The handlers from elsewhere after a step: one that is added again stays where it is. -/
def foreignAfter (names : List String) : LogStep → List String
  | addForeign name => if name ∈ names then names else names ++ [name]
  | removeForeign name => names.filter (· ≠ name)
  | _ => names

/-- The handlers from elsewhere that steps leave, in the order in which they were added. -/
def foreign (steps : List LogStep) : List String := steps.foldl foreignAfter []

/-- One more step. -/
theorem foreign_concat (steps : List LogStep) (step : LogStep) :
    foreign (steps ++ [step]) = foreignAfter (foreign steps) step :=
  List.foldl_concat ..

end LogStep

/-- A configuration that was installed. -/
structure LogCall where
  /-- The configuration. -/
  config : LoggingConfig
  /-- The log file that was opened for it. -/
  opened : Option Path
  /-- The handlers that were installed. -/
  handlers : List LogHandler

/-- The handlers of a call are those that its configuration asks for, all of its level. -/
structure LogCall.Fulfils (call : LogCall) : Prop where
  /-- The configuration is in range. -/
  inRange : call.config.check = .ok ()
  /-- The handlers go where the configuration says. -/
  targets : call.handlers.map (·.target) = call.config.targets call.opened
  /-- The handlers have the level of the configuration. -/
  level : ∀ handler ∈ call.handlers, handler.level = call.config.leastLevel

/-- The root logger and the configurations that were installed. -/
structure LogSession where
  /-- The root logger and where its lines go. -/
  state : LogState
  /-- The configurations before the last one, the first one first. -/
  earlier : List LogCall
  /-- The last configuration, if there is one. -/
  last : Option LogCall

namespace LogSession

/-- A root logger that was never configured. -/
def start (output : LogOutput) : LogSession := ⟨⟨.fresh, output⟩, [], none⟩

/-- The session after a step. A configuration that fails is not installed, whatever files it leaves. -/
def advance (session : LogSession) : LogStep → LogSession
  | .configure config _ homes now =>
    match session.state.configure homes config now with
    | .ok state =>
      { state, earlier := session.earlier ++ session.last.toList,
        last := some ⟨config, config.openedFile homes session.state.output.files now,
          state.root.installed⟩ }
    | .error left => { session with state := session.state.withFiles left.files }
  | .addForeign name =>
    { session with state := { session.state with root := session.state.root.addForeign name } }
  | .removeForeign name =>
    { session with state := { session.state with root := session.state.root.removeForeign name } }
  | .log context record => { session with state := session.state.log context record }
  | .changeFiles files => { session with state := session.state.withFiles files }

/-- The session after steps. -/
def after (output : LogOutput) (steps : List LogStep) : LogSession :=
  steps.foldl advance (start output)

/-- The handlers that the last configuration installed. -/
def returned (session : LogSession) : List LogHandler := session.last.toList.flatMap (·.handlers)

/-- The numbers of the handlers of calls. -/
def numbersOf (calls : List LogCall) : List Nat := (calls.flatMap (·.handlers)).map (·.number)

/-- How a session stands to the handlers from elsewhere that there should be. -/
structure Sound (session : LogSession) (foreign : List String) : Prop where
  /-- The handlers are those from elsewhere and, in one place among them, those of the last
  configuration. -/
  handlers : ∃ before behind, before ++ behind = foreign ∧
    session.state.root.handlers = before.map .foreign ++
      session.state.root.installed.map .own ++ behind.map .foreign
  /-- What the root logger takes for installed is what the last configuration installed. -/
  installed : session.state.root.installed = session.returned
  /-- The handlers are numbered as they are made. -/
  made : numbersOf (session.earlier ++ session.last.toList) = List.range session.state.root.made
  /-- The handlers that were closed are those of the configurations before the last. -/
  closed : session.state.root.closed = numbersOf session.earlier
  /-- The last configuration installed what it asks for. -/
  fulfils : ∀ call ∈ session.last, call.Fulfils
  /-- The level is that of the last configuration. -/
  level : ∀ call ∈ session.last, session.state.root.level = call.config.leastLevel

variable {session : LogSession} {foreign : List String}

/-- The last step comes after the others. -/
theorem after_concat (output : LogOutput) (steps : List LogStep) (step : LogStep) :
    after output (steps ++ [step]) = (after output steps).advance step :=
  List.foldl_concat ..

/-- The numbers of the handlers of calls are those of some and of the others. -/
theorem numbersOf_append (calls more : List LogCall) :
    numbersOf (calls ++ more) = numbersOf calls ++ numbersOf more := by
  rw [numbersOf, List.flatMap_append, List.map_append]
  rfl

/-- A configuration whose log file has a path becomes the last one, any other changes at most the
files. -/
theorem advance_configure_cases (session : LogSession) (config : LoggingConfig)
    (inRange : config.check = .ok ()) (homes : Homes) (now : Instant) :
    (config.HasPath homes session.state.output.files now ∧ ∃ state,
      state.root = session.state.root.install
        (config.targets (config.openedFile homes session.state.output.files now))
        config.leastLevel config.lineFormat ∧
      session.advance (.configure config inRange homes now) =
        { state, earlier := session.earlier ++ session.last.toList,
          last := some ⟨config, config.openedFile homes session.state.output.files now,
            state.root.installed⟩ }) ∨
    (¬ config.HasPath homes session.state.output.files now ∧ ∃ files,
      session.advance (.configure config inRange homes now) =
        { session with state := session.state.withFiles files }) := by
  rcases session.state.configure_cases homes config now with
    ⟨hpath, files, entries, hnext⟩ | ⟨hpath, failure, hfailure⟩
  · exact Or.inl ⟨hpath, _, LogState.root_reportAll .., by rw [advance, hnext]⟩
  · exact Or.inr ⟨hpath, failure.files, by rw [advance, hfailure]⟩

/-- Where the lines go makes no difference. -/
theorem Sound.withState (h : session.Sound foreign) {state : LogState}
    (hroot : state.root = session.state.root) : Sound { session with state } foreign := by
  obtain ⟨root, output⟩ := state
  obtain rfl : root = session.state.root := hroot
  exact { h with }

/-- A session stays sound if only its handlers change, as those from elsewhere do. -/
theorem Sound.withHandlers (h : session.Sound foreign) {handlers : List RootHandler}
    {names : List String} (before behind : List String) (hnames : before ++ behind = names)
    (hhandlers : handlers = before.map .foreign ++ session.state.root.installed.map .own ++
      behind.map .foreign) :
    Sound { session with
      state := { session.state with root := { session.state.root with handlers } } } names :=
  { h with handlers := ⟨before, behind, hnames, hhandlers⟩ }

/-- A handler from elsewhere is added behind the others unless it is there. -/
theorem Sound.addForeign (h : session.Sound foreign) (name : String) :
    (session.advance (.addForeign name)).Sound
      (LogStep.foreignAfter foreign (.addForeign name)) := by
  obtain ⟨before, behind, hforeign, hhandlers⟩ := h.handlers
  have hcontains : session.state.root.handlers.contains (.foreign name) = true ↔
      name ∈ foreign := by
    rw [hhandlers, ← hforeign]
    simp
  rw [advance, RootLogger.addForeign, LogStep.foreignAfter]
  by_cases hname : name ∈ foreign
  · rw [if_pos (hcontains.mpr hname), if_pos hname]
    exact h
  · rw [if_neg (mt hcontains.mp hname), if_neg hname]
    refine h.withHandlers before (behind ++ [name]) ?_ ?_
    · rw [← hforeign, List.append_assoc]
    · rw [hhandlers, List.map_append, List.map_singleton, List.append_assoc]

/-- A handler from elsewhere is removed from among the others. -/
theorem Sound.removeForeign (h : session.Sound foreign) (name : String) :
    (session.advance (.removeForeign name)).Sound
      (LogStep.foreignAfter foreign (.removeForeign name)) := by
  obtain ⟨before, behind, hforeign, hhandlers⟩ := h.handlers
  refine h.withHandlers (before.filter (· ≠ name)) (behind.filter (· ≠ name)) ?_ ?_
  · rw [← List.filter_append, hforeign]
    rfl
  · have hnames (names : List String) :
        (names.map RootHandler.foreign).filter (· ≠ .foreign name) =
          (names.filter (· ≠ name)).map .foreign := by
      simp [List.filter_map, Function.comp_def]
    rw [hhandlers, List.filter_append, List.filter_append, hnames, hnames]
    simp [List.filter_eq_self]

/-- A configuration takes the place of the one before. -/
theorem Sound.configure (h : session.Sound foreign) (config : LoggingConfig)
    (inRange : config.check = .ok ()) (homes : Homes) (now : Instant) :
    (session.advance (.configure config inRange homes now)).Sound foreign := by
  rcases session.advance_configure_cases config inRange homes now with
    ⟨-, state, hroot, hnext⟩ | ⟨-, files, hnext⟩
  · rw [hnext]
    obtain ⟨before, behind, hforeign, hhandlers⟩ := h.handlers
    have hlevel : state.root.level = config.leastLevel := by rw [hroot, RootLogger.install]
    exact {
      handlers := ⟨foreign, [], List.append_nil _, by
        rw [hroot, RootLogger.handlers_install _ _ _ _ hhandlers, hforeign, List.map_nil,
          List.append_nil]⟩
      installed := (List.append_nil _).symm
      made := by
        rw [numbersOf_append, h.made, Option.toList_some, numbersOf, List.flatMap_singleton,
          hroot, RootLogger.map_number_install, ← List.range_add]
        rfl
      closed := by
        rw [hroot, numbersOf_append, ← h.closed, RootLogger.install, h.installed]
        rfl
      fulfils := by
        rintro _ ⟨⟩
        refine ⟨inRange, ?_, fun handler hmem => ?_⟩
        · rw [hroot]
          exact RootLogger.map_target_install ..
        · rw [← hlevel]
          exact hroot ▸ RootLogger.level_of_mem_install _ _ _ _ (hroot ▸ hmem)
      level := by
        rintro _ ⟨⟩
        exact hlevel }
  · rw [hnext]
    exact h.withState rfl

/-- Every step keeps a session sound. -/
theorem Sound.advance (h : session.Sound foreign) (step : LogStep) :
    (session.advance step).Sound (step.foreignAfter foreign) := by
  cases step with
  | configure config inRange homes now => exact h.configure config inRange homes now
  | addForeign name => exact h.addForeign name
  | removeForeign name => exact h.removeForeign name
  | log context record => exact h.withState (LogState.root_log ..)
  | changeFiles files => exact h.withState rfl

/-- Every session is sound. -/
theorem sound_after (output : LogOutput) (steps : List LogStep) :
    (after output steps).Sound (LogStep.foreign steps) := by
  induction steps using List.reverseRecOn with
  | nil =>
    exact {
      handlers := ⟨[], [], rfl, rfl⟩
      installed := rfl
      made := rfl
      closed := rfl
      fulfils := fun _ h => (Option.not_mem_none _ h).elim
      level := fun _ h => (Option.not_mem_none _ h).elim }
  | append_singleton steps step ih =>
    rw [after_concat, LogStep.foreign_concat]
    exact ih.advance step

/-- In every session the handlers of the root logger are those from elsewhere, in the order in which
they were added, and those that the last configuration returned. A handler of any configuration
before was removed and closed exactly once, and one of the last was not closed. The last
configuration returned a handler for its log file if that was opened, and one for the error output
if that was asked for or no file was opened; they and the root logger have the level that it names.
A configuration is installed whenever its log file has a path, whether it can be opened or not. -/
theorem log_session (output : LogOutput) (steps : List LogStep) :
    (∃ before behind, before ++ behind = LogStep.foreign steps ∧
      (after output steps).state.root.handlers = before.map .foreign ++
        (after output steps).returned.map .own ++ behind.map .foreign) ∧
    (∀ call ∈ (after output steps).earlier, ∀ handler ∈ call.handlers,
      .own handler ∉ (after output steps).state.root.handlers ∧
      (after output steps).state.root.closed.count handler.number = 1) ∧
    (∀ handler ∈ (after output steps).returned,
      (after output steps).state.root.closed.count handler.number = 0) ∧
    (∀ call ∈ (after output steps).last,
      call.handlers.map (·.target) = call.config.targets call.opened ∧
      lowered (after output steps).state.root.level.name = lowered call.config.level ∧
      ∀ handler ∈ call.handlers, handler.level = (after output steps).state.root.level) ∧
    ∀ (config : LoggingConfig) (inRange : config.check = .ok ()) (homes : Homes) (now : Instant),
      config.HasPath homes (after output steps).state.output.files now →
        (after output (steps ++ [.configure config inRange homes now])).earlier =
          (after output steps).earlier ++ (after output steps).last.toList ∧
        ∃ call, (after output (steps ++ [.configure config inRange homes now])).last = some call ∧
          call.config = config ∧
          call.opened = config.openedFile homes (after output steps).state.output.files now := by
  have h := sound_after output steps
  obtain ⟨before, behind, hforeign, hhandlers⟩ := h.handlers
  rw [h.installed] at hhandlers
  -- no two handlers that were ever made have one number
  have hnumbers : (numbersOf (after output steps).earlier ++
      (after output steps).returned.map (·.number)).Nodup := by
    have hmade := h.made
    rw [numbersOf_append] at hmade
    exact hmade ▸ List.nodup_range
  obtain ⟨hearlier, -, hapart⟩ := List.nodup_append.mp hnumbers
  refine ⟨⟨before, behind, hforeign, hhandlers⟩, fun call hcall handler hmem => ?_,
    fun handler hmem => ?_, fun call hcall => ?_, fun config inRange homes now hpath => ?_⟩
  · have hnumber : handler.number ∈ numbersOf (after output steps).earlier :=
      List.mem_map_of_mem (List.mem_flatMap.mpr ⟨call, hcall, hmem⟩)
    constructor
    · rw [hhandlers]
      intro hown
      have hreturned : handler ∈ (after output steps).returned := by simpa using hown
      exact hapart _ hnumber _ (List.mem_map_of_mem hreturned) rfl
    · rw [h.closed]
      exact List.nodup_iff_count_eq_one.mp hearlier _ hnumber
  · rw [h.closed]
    refine List.count_eq_zero.mpr fun hnumber => ?_
    exact hapart _ hnumber _ (List.mem_map_of_mem hmem) rfl
  · have hfulfils := h.fulfils call hcall
    rw [h.level call hcall]
    exact ⟨hfulfils.targets, LoggingConfig.lowered_leastLevel hfulfils.inRange, hfulfils.level⟩
  · rw [after_concat]
    rcases (after output steps).advance_configure_cases config inRange homes now with
      ⟨-, state, -, hnext⟩ | ⟨hnone, -⟩
    · rw [hnext]
      exact ⟨rfl, _, rfl, rfl, rfl⟩
    · exact absurd hpath hnone

/-- A log file below a plain file: the logger is configured, and writes to the error output. -/
theorem log_session_below_file :
    ∃ call ∈ (after ⟨⟨[(["plain"], .file ⟨#[]⟩ 0)], []⟩, [], fun _ => ⟨"", ""⟩⟩
        [.configure ⟨"info", some ⟨.here, ["plain", "x.log"]⟩, "text", false, 0, 0⟩ (by decide)
          ⟨⟨.root, []⟩, []⟩ ⟨0⟩]).last,
      call.handlers.map (·.target) = [.errorOutput] := by
  obtain ⟨hpath, hrefused⟩ := LoggingConfig.hasPath_of_refused
    ⟨"info", some ⟨.here, ["plain", "x.log"]⟩, "text", false, 0, 0⟩ ⟨⟨.root, []⟩, []⟩ ⟨0⟩ rfl rfl
    (congrArg Prod.snd LogState.openLog_below_file) (by decide)
  obtain ⟨-, call, hcall, hconfig, hopened⟩ :=
    (log_session ⟨⟨[(["plain"], .file ⟨#[]⟩ 0)], []⟩, [], fun _ => ⟨"", ""⟩⟩ []).2.2.2.2 _
      (by decide) _ _ hpath
  refine ⟨call, hcall, ((log_session _ _).2.2.2.1 call hcall).1.trans ?_⟩
  rw [hconfig, hopened.trans hrefused]
  rfl

end LogSession

end DriverPolicy

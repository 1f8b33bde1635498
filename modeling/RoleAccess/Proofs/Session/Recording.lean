import RoleAccess.Proofs.Explanation.Agreement
import RoleAccess.Proofs.Log.Decisions
import RoleAccess.Proofs.Session.Reachable
import RoleAccess.Proofs.Value.Obstacle

namespace RoleAccess

def Settings.recording (settings : Settings) (on : Bool) : Settings :=
  { settings with decisions := on }

namespace Event

-- What the events leave in the log of one logger.
def rowsOn (logger : String) (events : List Event) : List Row :=
  (events.map row).filter (·.logger = logger)

theorem row_logger (event : Event) : event.row.logger = event.logger := by
  cases event <;> rfl

theorem rowsOn_append (logger : String) (events decisions : List Event) :
    rowsOn logger (events ++ decisions) = rowsOn logger events ++ rowsOn logger decisions := by
  unfold rowsOn
  rw [List.map_append, List.filter_append]

theorem rowsOn_eq_nil {logger : String} {events : List Event}
    (h : ∀ event ∈ events, event.logger ≠ logger) : rowsOn logger events = [] := by
  apply List.filter_eq_nil_iff.mpr
  intro row hrow
  obtain ⟨event, hevent, rfl⟩ := List.mem_map.mp hrow
  simpa [row_logger] using h event hevent

theorem rowsOn_eq_map {logger : String} {events : List Event}
    (h : ∀ event ∈ events, event.logger = logger) : rowsOn logger events = events.map row := by
  apply List.filter_eq_self.mpr
  intro row hrow
  obtain ⟨event, hevent, rfl⟩ := List.mem_map.mp hrow
  simpa [row_logger] using h event hevent

end Event

-- Requests as they are documented: a token, or a list of tokens.
inductive Request.OfTokens : Request → Prop where
  | one (token : String) : OfTokens (.ofValue (.text token))
  | list (tokens : List String) : OfTokens (.ofValue (.ofTexts tokens))

theorem Request.OfTokens.exists_preview? {request : Request} (h : request.OfTokens) :
    ∃ shown, request.preview? = .ok shown := by
  cases h with
  | one token => exact ⟨_, rfl⟩
  | list tokens =>
      have hshown :
          (Value.ofTexts tokens).obstacle? Limits.standard.digits Limits.standard.depth = none := by
        rw [Value.ofTexts, Value.obstacle?]
        exact Value.obstacleAmong?_texts _ _ tokens
      rw [Request.ofValue_ofTexts, Request.preview?, Value.within_ok_iff.mpr ⟨hshown, rfl⟩]
      exact ⟨_, rfl⟩

namespace Roster

theorem cycles_quiet (id : RoleId) (vias : List RoleId) :
    ∀ event ∈ vias.map (Event.cycle id), event.logger ≠ Event.decisionLogger := by
  intro event hevent
  obtain ⟨via, _, rfl⟩ := List.mem_map.mp hevent
  exact Event.lineageLogger_ne

theorem walkEvents_quiet (roster : Roster) (id : RoleId) :
    ∀ event ∈ roster.walkEvents id, event.logger ≠ Event.decisionLogger :=
  cycles_quiet id _

theorem knownWalkEvents_quiet (roster : Roster) (id : RoleId) :
    ∀ event ∈ roster.knownWalkEvents id, event.logger ≠ Event.decisionLogger := by
  unfold knownWalkEvents
  split
  · exact roster.walkEvents_quiet id
  · simp

theorem searchEvents_quiet (roster : Roster) (id ancestor : RoleId) :
    ∀ event ∈ roster.searchEvents id ancestor, event.logger ≠ Event.decisionLogger := by
  unfold searchEvents
  split
  · exact cycles_quiet id _
  · simp

end Roster

namespace Command

-- What a command asks to be decided.
def request? : Command → Option Request
  | can _ request _ | explain _ request _ => some request
  | _ => none

-- Where an answer is to be recorded with the request it is for, there is a line for the request.
def Previewed (c : Command) (returned : Except SessionError Answer) : Prop :=
  match c, returned with
  | .can _ request _, .ok _ => ∃ shown, request.preview? = .ok shown
  | _, _ => True

theorem previewed_of_tokens {request : Request} (h : request.OfTokens) (role : RoleId)
    (resource : String) (returned : Except SessionError Answer) :
    (can role request resource).Previewed returned := by
  cases returned with
  | error e => trivial
  | ok answer => exact h.exists_preview?

-- The decisions that are to be recorded of a command, told from what it returns: one where that is
-- a truth value, and as many as there are explanations. There are none if there is no answer, and
-- none where nothing is decided.
inductive Recorded : Command → Except SessionError Answer → List Event → Prop where
  | can (role : RoleId) (request : Request) (resource shown : String) (granted : Bool)
    (hshown : request.preview? = .ok shown) :
    Recorded (.can role request resource) (.ok (.truth granted))
      [.decided granted role resource shown]
  | explanation (role : RoleId) (asked : Asked) (resource : String) (e : Explanation) :
    Recorded (.explain role (.one asked) resource) (.ok (.explanation e)) [.explained e]
  | explanations (role : RoleId) (asked : List Asked) (shown : Except ShowError String)
    (resource : String) (es : List Explanation) :
    Recorded (.explain role (.any asked none shown) resource) (.ok (.explanations es))
      (es.map .explained)
  | refused (c : Command) (request : Request) (e : RequestError)
    (hrequest : c.request? = some request) (hflaw : request.flaw? = some e) :
    Recorded c (.error (.request e)) []
  | other (c : Command) (returned : Except SessionError Answer) (h : c.request? = none) :
    Recorded c returned []

theorem Recorded.logger {c : Command} {returned : Except SessionError Answer}
    {decisions : List Event} (h : c.Recorded returned decisions) :
    ∀ event ∈ decisions, event.logger = Event.decisionLogger := by
  intro event hevent
  cases h with
  | can =>
      rw [List.mem_singleton.mp hevent]
      rfl
  | explanation role asked resource e =>
      rw [List.mem_singleton.mp hevent]
      rfl
  | explanations =>
      obtain ⟨e, _, rfl⟩ := List.mem_map.mp hevent
      rfl
  | refused | other => cases hevent

-- What a command comes to with decisions recorded, and what it comes to without.
structure Undisturbed (c : Command) (on off : Outcome) : Prop where
  returned : c ≠ .settings → c.Previewed off.returned → on.returned = off.returned
  settings : c = .settings → ∃ settings : Settings,
    on.returned = .ok (.settings (settings.recording true)) ∧
    off.returned = .ok (.settings (settings.recording false))
  roster : on.session.roster = off.session.roster
  others : ∀ logger, logger ≠ Event.decisionLogger →
    Event.rowsOn logger on.events = Event.rowsOn logger off.events
  silent : Event.rowsOn Event.decisionLogger off.events = []
  recorded : c.Previewed off.returned → ∃ decisions, c.Recorded on.returned decisions ∧
    Event.rowsOn Event.decisionLogger on.events = decisions.map Event.row ∧
    ∀ event ∈ decisions, event.Recordable

-- Two runs of the same commands, side by side.
inductive Abreast : List Command → List Outcome → List Outcome → Prop where
  | nil : Abreast [] [] []
  | cons (c : Command) (cs : List Command) (on off : Outcome) (ons offs : List Outcome)
    (h : c.Undisturbed on off) (hrest : Abreast cs ons offs) :
    Abreast (c :: cs) (on :: ons) (off :: offs)

end Command

namespace Session

def recording (s : Session) (on : Bool) : Session :=
  { s with settings := s.settings.recording on }

-- What decisions a command is recorded with is all that comes on top, and it comes at the end.
structure Traced (c : Command) (on off : Outcome) (decisions : List Event) : Prop where
  returned : c.Previewed off.returned → on.returned = off.returned
  roster : on.session.roster = off.session.roster
  events : on.events = off.events ++ decisions
  quiet : ∀ event ∈ off.events, event.logger ≠ Event.decisionLogger
  logger : ∀ event ∈ decisions, event.logger = Event.decisionLogger
  recorded : c.Previewed off.returned → c.Recorded on.returned decisions

theorem Traced.undisturbed {c : Command} {on off : Outcome} {decisions : List Event}
    (h : Traced c on off decisions) (hc : c ≠ .settings) : c.Undisturbed on off := by
  have hsilent := Event.rowsOn_eq_nil h.quiet
  refine ⟨fun _ => h.returned, fun heq => absurd heq hc, h.roster, ?_, hsilent,
    fun hpreviewed => ⟨decisions, h.recorded hpreviewed, ?_, ?_⟩⟩
  · intro logger hlogger
    have hnone : Event.rowsOn logger decisions = [] := by
      apply Event.rowsOn_eq_nil
      intro event hevent heq
      exact hlogger (heq.symm.trans (h.logger event hevent))
    rw [h.events, Event.rowsOn_append, hnone, List.append_nil]
  · rw [h.events, Event.rowsOn_append, hsilent, List.nil_append]
    exact Event.rowsOn_eq_map h.logger
  · intro event hevent
    exact Event.recordable_of_logger (h.logger event hevent)

theorem traced_of_nothing (s : Session) {c : Command} {answer : Except SessionError Answer}
    {events : List Event} (hquiet : ∀ event ∈ events, event.logger ≠ Event.decisionLogger)
    (hrecorded : c.Recorded answer []) :
    Traced c ⟨answer, events, s.recording true, none⟩ ⟨answer, events, s.recording false, none⟩
      [] :=
  ⟨fun _ => rfl, rfl, (List.append_nil events).symm, hquiet, hrecorded.logger, fun _ => hrecorded⟩

theorem traced_of_decisions (s : Session) {c : Command} {answer : Answer}
    {events decisions : List Event}
    (hquiet : ∀ event ∈ events, event.logger ≠ Event.decisionLogger)
    (hrecorded : c.Recorded (.ok answer) decisions) :
    Traced c
      ((s.recording true).reply answer (events ++ (s.recording true).ifDecisions decisions))
      ((s.recording false).reply answer (events ++ (s.recording false).ifDecisions decisions))
      decisions := by
  have hon : (s.recording true).ifDecisions decisions = decisions := rfl
  have hoff : (s.recording false).ifDecisions decisions = [] := rfl
  rw [hon, hoff, List.append_nil]
  exact ⟨fun _ => rfl, rfl, rfl, hquiet, hrecorded.logger, fun _ => hrecorded⟩

theorem canRequest_of_answered {s : Session} {role : RoleId} {request : Request}
    {resource : String}
    (h : request.flaw? = none ∨ s.roster.can role request.tokens resource = true) :
    s.canRequest role request resource =
      s.replyDecided (s.roster.can role request.tokens resource) role request resource := by
  unfold canRequest
  rcases h with hflaw | hgranted
  · rw [hflaw]
  · rw [hgranted]
    cases request.flaw? <;> rfl

theorem canRequest_of_refused {s : Session} {role : RoleId} {request : Request}
    {resource : String} {e : RequestError} (hflaw : request.flaw? = some e)
    (hgranted : s.roster.can role request.tokens resource = false) :
    s.canRequest role request resource =
      s.refuse (.request e) (s.roster.walkEvents role) := by
  unfold canRequest
  rw [hflaw, hgranted]

theorem replyDecided_of_preview {s : Session} {request : Request} {shown : String}
    (h : request.preview? = .ok shown) (granted : Bool) (role : RoleId) (resource : String) :
    s.replyDecided granted role request resource =
      s.reply (.truth granted) (s.roster.walkEvents role ++
        s.ifDecisions [.decided granted role resource shown]) := by
  unfold replyDecided recordOfDecision ifDecisions
  rw [h]
  cases s.settings.decisions <;> rfl

theorem canRequest_lapse {s : Session} {role : RoleId} {request : Request} {resource : String}
    (h : (Command.can role request resource).Previewed
      (s.canRequest role request resource).answer) :
    (s.canRequest role request resource).lapse = none := by
  by_cases hanswered : request.flaw? = none ∨ s.roster.can role request.tokens resource = true
  · rw [canRequest_of_answered hanswered] at h ⊢
    obtain ⟨shown, hshown⟩ := h
    rw [replyDecided_of_preview hshown]
    rfl
  · obtain ⟨hflaw, hgranted⟩ := not_or.mp hanswered
    obtain ⟨e, he⟩ := Option.ne_none_iff_exists'.mp hflaw
    rw [canRequest_of_refused he (Bool.eq_false_iff.mpr hgranted)]
    rfl

theorem explainRequest_lapse (s : Session) (role : RoleId) (request : Request)
    (resource : String) : (s.explainRequest role request resource).lapse = none := by
  simp only [explainRequest]
  cases request.flaw? <;> rfl

theorem change_lapse (s : Session) (configuration : Value) (merge : Bool) (answer : Answer) :
    (s.change configuration merge answer).lapse = none := by
  unfold change
  split
  · rfl
  · cases merge <;> rfl

-- What is returned is the answer, where it can be recorded.
theorem returned_of_previewed {s : Session} {c : Command} (h : c.Previewed (s.run c).answer) :
    (s.run c).returned = (s.run c).answer := by
  have hlapse : (s.run c).lapse = none := by
    cases c with
    | can role request resource => exact canRequest_lapse h
    | explain role request resource => exact s.explainRequest_lapse role request resource
    | update configuration merge => exact s.change_lapse configuration merge .self
    | merge configuration => exact s.change_lapse configuration true .done
    | replace configuration => exact s.change_lapse configuration false .done
    | _ => rfl
  rw [Outcome.returned, hlapse]
  rfl

theorem returned_replyDecided (s : Session) (granted : Bool) (role : RoleId) (request : Request)
    (resource : String) :
    (s.replyDecided granted role request resource).returned =
      if s.settings.decisions then
        (request.preview?.mapError SessionError.record).map fun _ => .truth granted
      else .ok (.truth granted) := by
  unfold replyDecided recordOfDecision
  cases s.settings.decisions with
  | false => rfl
  | true => cases request.preview? <;> rfl

-- Without a line for the request there is no record. Nothing is said of what is returned then.
theorem replyDecided_traced (s : Session) (granted : Bool) (role : RoleId) (request : Request)
    (resource : String) : ∃ decisions, Traced (.can role request resource)
      ((s.recording true).replyDecided granted role request resource)
      ((s.recording false).replyDecided granted role request resource) decisions := by
  have hquiet := s.roster.walkEvents_quiet role
  cases hpreview : request.preview? with
  | ok shown =>
      rw [replyDecided_of_preview hpreview, replyDecided_of_preview hpreview]
      exact ⟨_, traced_of_decisions s hquiet (.can role request resource shown granted hpreview)⟩
  | error e =>
      have hevents (on : Bool) :
          ((s.recording on).replyDecided granted role request resource).events =
            s.roster.walkEvents role ++ [] := by
        unfold replyDecided recordOfDecision
        rw [hpreview]
        cases on <;> rfl
      have hhidden : ¬ (Command.can role request resource).Previewed (.ok (.truth granted)) := by
        rintro ⟨shown, hshown⟩
        rw [hpreview] at hshown
        cases hshown
      refine ⟨[], fun h => absurd h hhidden, rfl, ?_, ?_, fun _ h => absurd h List.not_mem_nil,
        fun h => absurd h hhidden⟩
      · rw [hevents, hevents]
        simp
      · rw [hevents, List.append_nil]
        exact hquiet

theorem canRequest_traced (s : Session) (role : RoleId) (request : Request)
    (resource : String) : ∃ decisions, Traced (.can role request resource)
      ((s.recording true).canRequest role request resource)
      ((s.recording false).canRequest role request resource) decisions := by
  by_cases h : request.flaw? = none ∨ s.roster.can role request.tokens resource = true
  · have hon := canRequest_of_answered (s := s.recording true) h
    have hoff := canRequest_of_answered (s := s.recording false) h
    rw [hon, hoff]
    exact replyDecided_traced s _ role request resource
  · obtain ⟨hflaw, hgranted⟩ := not_or.mp h
    obtain ⟨e, he⟩ := Option.ne_none_iff_exists'.mp hflaw
    have hdenied := Bool.eq_false_iff.mpr hgranted
    have hon := canRequest_of_refused (s := s.recording true) he hdenied
    have hoff := canRequest_of_refused (s := s.recording false) he hdenied
    have hquiet := s.roster.walkEvents_quiet role
    rw [hon, hoff]
    exact ⟨[], traced_of_nothing s hquiet (.refused _ request e rfl he)⟩

theorem explainRequest_traced (s : Session) (role : RoleId) (request : Request)
    (resource : String) : ∃ decisions, Traced (.explain role request resource)
      ((s.recording true).explainRequest role request resource)
      ((s.recording false).explainRequest role request resource) decisions := by
  have hquiet : ∀ event ∈ request.asked.flatMap fun _ => s.roster.walkEvents role,
      event.logger ≠ Event.decisionLogger := by
    intro event hevent
    obtain ⟨_, _, hevent⟩ := List.mem_flatMap.mp hevent
    exact s.roster.walkEvents_quiet role event hevent
  cases request with
  | one asked => exact ⟨_, traced_of_decisions s hquiet (.explanation role asked resource _)⟩
  | any asked flaw shown =>
      cases flaw with
      | none =>
          exact ⟨_, traced_of_decisions s hquiet (.explanations role asked shown resource _)⟩
      | some e => exact ⟨[], traced_of_nothing s hquiet (.refused _ _ e rfl rfl)⟩

theorem change_traced (s : Session) {c : Command} (hc : c.request? = none)
    (configuration : Value) (merge : Bool) (answer : Answer) :
    Traced c ((s.recording true).change configuration merge answer)
      ((s.recording false).change configuration merge answer) [] := by
  cases h : Roster.ofValue? configuration with
  | error e =>
      rw [change_of_error h, change_of_error h]
      exact traced_of_nothing s (by simp) (.other c _ hc)
  | ok update =>
      unfold change
      rw [h]
      have hstore (logged : Event) (hlogged : logged.logger = Event.storeLogger) :
          ∀ event ∈ [logged], event.logger ≠ Event.decisionLogger := by
        intro event hevent
        rw [List.mem_singleton.mp hevent, hlogged]
        exact Event.storeLogger_ne
      have hnone : ∀ event ∈ ([] : List Event), event.logger = Event.decisionLogger :=
        fun _ h => absurd h List.not_mem_nil
      cases merge with
      | true => exact ⟨fun _ => rfl, rfl, rfl, hstore _ rfl, hnone, fun _ => .other c _ hc⟩
      | false => exact ⟨fun _ => rfl, rfl, rfl, hstore _ rfl, hnone, fun _ => .other c _ hc⟩

theorem run_traced (s : Session) {c : Command} (hc : c ≠ .settings) :
    ∃ decisions, Traced c ((s.recording true).run c) ((s.recording false).run c) decisions := by
  cases c with
  | can role request resource => exact canRequest_traced s role request resource
  | explain role request resource => exact explainRequest_traced s role request resource
  | has role _ _ | hasWildcard role _ | tokens role _ =>
      exact ⟨[], traced_of_nothing s (s.roster.walkEvents_quiet role) (.other _ _ rfl)⟩
  | inheritsFrom role ancestor =>
      exact ⟨[], traced_of_nothing s (s.roster.searchEvents_quiet role ancestor)
        (.other _ _ rfl)⟩
  | ancestors role | allTokens role =>
      exact ⟨[], traced_of_nothing s (s.roster.knownWalkEvents_quiet role) (.other _ _ rfl)⟩
  | settings => exact absurd rfl hc
  | update configuration merge => exact ⟨[], change_traced s rfl configuration merge .self⟩
  | merge configuration => exact ⟨[], change_traced s rfl configuration true .done⟩
  | replace configuration => exact ⟨[], change_traced s rfl configuration false .done⟩
  | _ => exact ⟨[], traced_of_nothing s (by simp) (.other _ _ rfl)⟩

theorem run_undisturbed (s : Session) (c : Command) :
    c.Undisturbed ((s.recording true).run c) ((s.recording false).run c) := by
  by_cases hc : c = .settings
  · subst hc
    exact ⟨fun h => absurd rfl h, fun _ => ⟨s.settings, rfl, rfl⟩, rfl, fun _ _ => rfl, rfl,
      fun _ => ⟨[], .other _ _ rfl, rfl, by simp⟩⟩
  · obtain ⟨decisions, h⟩ := run_traced s hc
    exact h.undisturbed hc

theorem change_session_recording (s : Session) (on : Bool) (configuration : Value)
    (merge : Bool) (answer : Answer) :
    ((s.recording on).change configuration merge answer).session =
      (s.change configuration merge answer).session.recording on := by
  cases h : Roster.ofValue? configuration with
  | error e =>
      rw [change_of_error h, change_of_error h]
      rfl
  | ok update =>
      rw [change_session_of_ok h, change_session_of_ok h]
      rfl

theorem run_session_recording (s : Session) (on : Bool) (c : Command) :
    ((s.recording on).run c).session = (s.run c).session.recording on := by
  cases hc : c.configuration? with
  | none => rw [run_session_of_question hc, run_session_of_question hc]
  | some configuration =>
      cases c with
      | update configuration merge => exact change_session_recording s on configuration merge .self
      | merge configuration => exact change_session_recording s on configuration true .done
      | replace configuration => exact change_session_recording s on configuration false .done
      | _ => cases hc

theorem runAll_abreast (s : Session) (cs : List Command) :
    Command.Abreast cs ((s.recording true).runAll cs) ((s.recording false).runAll cs) := by
  induction cs generalizing s with
  | nil => exact .nil
  | cons c cs ih =>
      have hrest := ih (s.run c).session
      rw [← run_session_recording, ← run_session_recording] at hrest
      exact .cons c cs _ _ _ _ (run_undisturbed s c) hrest

def readers : Value :=
  .map [(.text "user", .map [(.text "permissions", .map [(.text "posts", .list [.text "read"])])])]

def reading : Session :=
  ⟨.default, ⟨⟨[(.named "user", ⟨.text "user", ⟨none, none, ⟨[("posts", ["read"])]⟩, none⟩⟩)]⟩⟩⟩

-- A collection of one token, under which there is a number of more digits than are shown.
def vast : Value := .map [(.text "read", .int (Int.ofNat (Nat.pow 10 5000)))]

theorem preview?_vast : (Request.ofValue vast).preview? = .error (.tooManyDigits 4300) := by
  have hobstacle : vast.obstacle? Limits.standard.digits Limits.standard.depth =
      some (.tooManyDigits 4300) := by decide +kernel
  have hrequest : Request.ofValue vast =
      .any [⟨"read", "read"⟩] none (vast.within .standard (Preview.textOf vast)) := rfl
  rw [hrequest, Request.preview?, Value.within, hobstacle]
  rfl

end Session

end RoleAccess

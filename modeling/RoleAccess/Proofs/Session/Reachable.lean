import RoleAccess.Proofs.Roster.WellFormed
import RoleAccess.Session

namespace RoleAccess

namespace Command

-- The configuration that a command brings along, if it is one that changes the roster.
def configuration? : Command → Option Value
  | update configuration _ | merge configuration | replace configuration => some configuration
  | _ => none

def Vetted (c : Command) : Prop := ∀ configuration ∈ c.configuration?, configuration.Vetted

end Command

namespace Session

-- The sessions that hosts get to hold: started from a configuration, then used and updated in
-- any order.
inductive Reachable : Session → Prop where
  | start (settings : Settings) (configuration : Value) (s : Session)
    (hvetted : configuration.Vetted) (h : (start? settings configuration).1 = .ok s) :
    Reachable s
  | run (s : Session) (c : Command) (h : Reachable s) (hvetted : c.Vetted) :
    Reachable (s.run c).session

theorem canRequest_session (s : Session) (role : RoleId) (request : Request)
    (resource : String) : (s.canRequest role request resource).session = s := by
  unfold canRequest
  cases request.flaw? <;> cases s.roster.can role request.tokens resource <;> rfl

theorem explainRequest_session (s : Session) (role : RoleId) (request : Request)
    (resource : String) : (s.explainRequest role request resource).session = s := by
  unfold explainRequest
  cases request.flaw? <;> rfl

theorem run_session_of_question {c : Command} (h : c.configuration? = none) (s : Session) :
    (s.run c).session = s := by
  cases c with
  | can role request resource => exact s.canRequest_session role request resource
  | explain role request resource => exact s.explainRequest_session role request resource
  | update _ _ | merge _ | replace _ => cases h
  | _ => rfl

theorem change_of_error {configuration : Value} {e : ConfigurationError}
    (h : Roster.ofValue? configuration = .error e) (s : Session) (merge : Bool)
    (answer : Answer) :
    s.change configuration merge answer = s.refuse (.configuration e) [] := by
  rw [change, h]

theorem change_session_of_ok {configuration : Value} {update : Roster}
    (h : Roster.ofValue? configuration = .ok update) (s : Session) (merge : Bool)
    (answer : Answer) :
    (s.change configuration merge answer).session =
      { s with roster := if merge then s.roster.merge update else update } := by
  rw [change, h]
  cases merge <;> rfl

theorem change_wellFormed {s : Session} (h : s.roster.WellFormed) {configuration : Value}
    (hvetted : configuration.Vetted) (merge : Bool) (answer : Answer) :
    (s.change configuration merge answer).session.roster.WellFormed := by
  cases hvalue : Roster.ofValue? configuration with
  | error e =>
      rw [change_of_error hvalue]
      exact h
  | ok update =>
      have hupdate := Roster.wellFormed_of_ofValue? hvetted hvalue
      rw [change_session_of_ok hvalue]
      cases merge with
      | true => exact h.merge hupdate
      | false => exact hupdate

theorem run_wellFormed {s : Session} (h : s.roster.WellFormed) {c : Command}
    (hvetted : c.Vetted) : (s.run c).session.roster.WellFormed := by
  cases hc : c.configuration? with
  | none =>
      rw [run_session_of_question hc]
      exact h
  | some configuration =>
      have hconfiguration := hvetted configuration hc
      cases c with
      | update _ merge =>
          cases hc
          exact change_wellFormed h hconfiguration merge .self
      | merge _ =>
          cases hc
          exact change_wellFormed h hconfiguration true .done
      | replace _ =>
          cases hc
          exact change_wellFormed h hconfiguration false .done
      | _ => cases hc

theorem start?_of_error {configuration : Value} {e : ConfigurationError}
    (h : Roster.create? configuration = .error e) (settings : Settings) :
    start? settings configuration = (.error e, []) := by
  rw [start?, h]

theorem start?_of_ok {configuration : Value} {roster : Roster}
    (h : Roster.create? configuration = .ok roster) (settings : Settings) :
    start? settings configuration = (.ok ⟨settings, roster⟩, [.created roster.size]) := by
  rw [start?, h]

theorem start?_wellFormed {settings : Settings} {configuration : Value} {s : Session}
    (hvetted : configuration.Vetted) (h : (start? settings configuration).1 = .ok s) :
    s.roster.WellFormed := by
  cases hroster : Roster.create? configuration with
  | error e =>
      rw [start?_of_error hroster] at h
      cases h
  | ok roster =>
      rw [start?_of_ok hroster] at h
      cases h
      exact Roster.wellFormed_of_create? hvetted hroster

theorem Reachable.wellFormed {s : Session} (h : s.Reachable) : s.roster.WellFormed := by
  induction h with
  | start settings configuration s hvetted h => exact start?_wellFormed hvetted h
  | run s c _ hvetted ih => exact run_wellFormed ih hvetted

theorem Reachable.runAll {s : Session} (h : s.Reachable) {cs : List Command}
    (hvetted : ∀ c ∈ cs, c.Vetted) : ∀ outcome ∈ s.runAll cs, outcome.session.Reachable := by
  induction cs generalizing s with
  | nil => simp [Session.runAll]
  | cons c cs ih =>
      obtain ⟨hc, hcs⟩ := List.forall_mem_cons.mp hvetted
      have hnext := Reachable.run s c h hc
      intro outcome houtcome
      rcases List.mem_cons.mp houtcome with rfl | hmem
      · exact hnext
      · exact ih hnext hcs outcome hmem

end Session

end RoleAccess

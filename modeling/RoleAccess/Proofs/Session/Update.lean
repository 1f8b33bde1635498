import RoleAccess.Proofs.Roster.InPlace
import RoleAccess.Proofs.Roster.Merge
import RoleAccess.Proofs.Session.Reachable

namespace RoleAccess

namespace Session

-- What an accepted update comes to. The roles that come in are those of the configuration, and
-- all of them take effect. A merge goes from role to role and checks each one that it builds once
-- more, which never fails, so that it ends where the session is then.
structure Updated (s : Session) (configuration : Value) (merge : Bool) (update : Roster)
    (outcome : Outcome) : Prop where
  answer : outcome.answer = .ok .self
  settings : outcome.session.settings = s.settings
  checked : ∃ es roles, configuration = .map es ∧
    List.Forall₂ (fun e filed => filed.key = e.1 ∧ Role.ofValue? e.2 = .ok filed.role) es roles ∧
    update = .ofFiled roles
  ids : merge = true → outcome.session.roster.ids =
    s.roster.ids ++ update.ids.filter fun id => !s.roster.contains id
  role : merge = true → ∀ id, outcome.session.roster.get? id =
    (update.get? id).elim (s.roster.get? id) fun new =>
      some ((s.roster.get? id).elim new (·.merge new))
  replaced : merge = false → outcome.session.roster = update
  rebuilt : ∀ id old new, s.roster.get? id = some old → update.get? id = some new →
    ∃ r, Role.rebuild? old new = .ok r
  mergeInPlace : (s.roster.mergeInPlace update).1 = .ok ()
  progress : s.Reachable → merge = true → ∃ added merged,
    (s.roster.mergeInPlace update).2 = ⟨outcome.session.roster, added, merged⟩ ∧
    outcome.events = [.merged added merged]

theorem change_events_of_ok {configuration : Value} {update : Roster}
    (h : Roster.ofValue? configuration = .ok update) (s : Session) (answer : Answer) :
    (s.change configuration true answer).events =
      [.merged (s.roster.countNew update) (update.size - s.roster.countNew update)] := by
  rw [change, h]
  rfl

theorem change_answer_of_ok {configuration : Value} {update : Roster}
    (h : Roster.ofValue? configuration = .ok update) (s : Session) (merge : Bool)
    (answer : Answer) : (s.change configuration merge answer).answer = .ok answer := by
  rw [change, h]
  cases merge <;> rfl

theorem updated_of_ok {configuration : Value} {update : Roster}
    (h : Roster.ofValue? configuration = .ok update) (s : Session) (merge : Bool) :
    s.Updated configuration merge update (s.change configuration merge .self) := by
  have hdistinct := Roster.distinct_of_ofValue? h
  have hsession := change_session_of_ok h s merge .self
  refine ⟨change_answer_of_ok h s merge .self, ?_, Roster.ofValue?_ok h, ?_, ?_, ?_,
    fun _ old new _ _ => Role.rebuild?_ok old new, Roster.Progress.takeAll_ok _ _, ?_⟩
  · rw [hsession]
  · rintro rfl
    rw [hsession]
    exact s.roster.ids_merge hdistinct
  · rintro rfl id
    rw [hsession]
    exact s.roster.get?_merge hdistinct id
  · rintro rfl
    rw [hsession]
    rfl
  · rintro hreachable rfl
    refine ⟨_, _, ?_, change_events_of_ok h s .self⟩
    rw [hsession, Roster.mergeInPlace_eq hreachable.wellFormed hdistinct]
    rfl

-- A bad configuration changes nothing, and a good one is applied as a whole.
theorem update_whole_or_not_at_all (s : Session) (configuration : Value) (merge : Bool) :
    ((∃ e, (s.run (.update configuration merge)).answer = .error e) ↔
      (∀ es, configuration ≠ .map es) ∨
        ∃ es, configuration = .map es ∧
          ∃ e ∈ es, ∃ issues, Role.ofValue? e.2 = .error issues) ∧
    (∀ e, (s.run (.update configuration merge)).answer = .error e →
      (s.run (.update configuration merge)).session = s ∧
      ∃ c, e = .configuration c ∧ configuration.Refused c ∧
        ∀ key issues, c = .invalidRole key issues → 0 < issues.length ∧
          c.message = s!"Invalid definition for role '{key.shown}': {issues.length} error(s)") ∧
    ∀ answer, (s.run (.update configuration merge)).answer = .ok answer →
      ∃ update, s.Updated configuration merge update (s.run (.update configuration merge)) := by
  have hrun : s.run (.update configuration merge) = s.change configuration merge .self := rfl
  rw [hrun, ← Roster.ofValue?_error_iff]
  cases h : Roster.ofValue? configuration with
  | error c =>
      rw [change_of_error h]
      refine ⟨⟨fun _ => ⟨c, rfl⟩, fun _ => ⟨_, rfl⟩⟩, ?_, ?_⟩
      · rintro e ⟨⟩
        have hrefused := Roster.ofValue?_error h
        refine ⟨rfl, c, rfl, hrefused, ?_⟩
        rintro key issues rfl
        cases hrefused with
        | invalidRole _ _ _ _ _ _ _ hissues => exact ⟨List.length_pos_iff.mpr hissues, rfl⟩
      · rintro answer ⟨⟩
  | ok update =>
      have hanswer := change_answer_of_ok h s merge .self
      refine ⟨⟨?_, ?_⟩, ?_, ?_⟩
      · rintro ⟨e, he⟩
        rw [hanswer] at he
        cases he
      · rintro ⟨e, ⟨⟩⟩
      · intro e he
        rw [hanswer] at he
        cases he
      · intro answer _
        exact ⟨update, updated_of_ok h s merge⟩

-- A session with one role, and an update of that role which brings in a second one.
def staffed : Session :=
  (run ⟨.default, .empty⟩ (.update (.map [(.text "staff", .map [(.text "permissions",
    .map [(.text "posts", .list [.text "read"])])])]) true)).session

def promotion (parents : Value) : Value :=
  .map [(.text "staff", .map [(.text "permissions",
      .map [(.text "posts", .list [.text "edit", .text "read"])])]),
    (.text "lead", .map [(.text "inherits", parents)])]

theorem staffed_reachable : staffed.Reachable := by
  refine .run _ _ (.start .default .none _ ?_ rfl) ?_
  · rintro es ⟨⟩
  · rintro configuration ⟨⟩ es ⟨⟩ e he r hr
    rw [List.mem_singleton.mp he] at hr
    cases hr

-- With a text for the parents the second role is refused and the first one stays as it was.
theorem update_of_staffed :
    (staffed.run (.update (promotion (.text "staff")) true)).session = staffed ∧
    ∃ update,
      staffed.Updated (promotion (.list [.text "staff"])) true update
        (staffed.run (.update (promotion (.list [.text "staff"])) true)) ∧
      ∃ added merged, (staffed.roster.mergeInPlace update).2 =
        ⟨(staffed.run (.update (promotion (.list [.text "staff"])) true)).session.roster, added,
          merged⟩ := by
  have hrefused : (staffed.run (.update (promotion (.text "staff")) true)).answer =
      .error (.configuration (.invalidRole (.text "lead") [⟨[.name "inherits"], .notList⟩])) := rfl
  have haccepted : (staffed.run (.update (promotion (.list [.text "staff"])) true)).answer =
      .ok .self := rfl
  have hbad := (update_whole_or_not_at_all staffed (promotion (.text "staff")) true).2.1
  have hgood := (update_whole_or_not_at_all staffed (promotion (.list [.text "staff"])) true).2.2
  obtain ⟨update, hupdate⟩ := hgood _ haccepted
  obtain ⟨added, merged, hprogress, _⟩ := hupdate.progress staffed_reachable rfl
  exact ⟨(hbad _ hrefused).1, update, hupdate, added, merged, hprogress⟩

end Session

end RoleAccess

import RoleAccess.Proofs.Session.Precedence

namespace RoleAccess

namespace Roster

-- A valid configuration counts as false only if it has no roles.
theorem create?_of_ofValue? {configuration : Value} {roster : Roster}
    (h : ofValue? configuration = .ok roster) : create? configuration = .ok roster := by
  unfold create?
  by_cases htruthy : configuration.truthy = true
  · rw [if_pos htruthy, h]
  · rw [if_neg htruthy]
    obtain ⟨es, _, rfl, -, -⟩ := ofValue?_ok h
    have hes : es = [] := by simpa [Value.truthy] using htruthy
    rw [hes] at h
    exact h

end Roster

namespace Session

-- Where two configurations lead: a session comes to `one` after the first and to `both` after the
-- second. `built` is started from the first alone and comes to `batch` after the second.
structure Batches (s : Session) (first second : Value) (built batch one both : Session) :
    Prop where
  starts : (start? s.settings first).1 = .ok built
  grows : built.Takes [second] batch
  inTurn : s.Takes [first, second] both
  atOnce : ∀ write ∈ [Value.role, Role.toValue], s.Takes [batch.roster.toValue write] both
  once : s.Takes [first] one
  again : s.Takes [first, first] one
  nothing : s.Takes [.map []] s
  filled : ∀ settings, Takes ⟨settings, .empty⟩ [first] ⟨settings, built.roster⟩
  replaced : ∀ t : Session, (t.run (.replace first)).answer = .ok .done ∧
    (t.run (.replace first)).session = { t with roster := built.roster }

-- Updates may be put together before they are merged, a second time they change nothing, and
-- the empty roster is where a roster starts from. The rosters are the same to the last place.
theorem merges_in_batches (s : Session) (hs : s.Reachable) (first second : Value) (u v : Roster)
    (hfirst : first.Describes u) (hsecond : second.Describes v) :
    ∃ built batch one both, s.Batches first second built batch one both := by
  have hwell := hs.wellFormed
  have hu := hfirst.wellFormed
  have hv := hsecond.wellFormed
  have hassoc := hwell.merge_assoc hu hv
  have hagain := hwell.merge_again hu
  refine ⟨⟨s.settings, u⟩, ⟨s.settings, u.merge v⟩, { s with roster := s.roster.merge u },
    { s with roster := (s.roster.merge u).merge v }, ?_, takes_one hsecond _,
    takes_two hfirst hsecond s, ?_, takes_one hfirst s, ?_, ?_, ?_, ?_⟩
  · rw [start?, Roster.create?_of_ofValue? hfirst.read]
  · intro write hwrite
    rw [hassoc]
    exact takes_one ((hu.merge hv).describes_toValue write hwrite) s
  · have htwice := takes_two hfirst hfirst s
    rwa [hagain] at htwice
  · have hnothing := takes_one Value.describes_empty s
    rwa [Roster.merge_empty] at hnothing
  · intro settings
    have hfilled := takes_one hfirst ⟨settings, .empty⟩
    rwa [Roster.empty_merge hu.ids] at hfilled
  · intro t
    exact ⟨change_answer_of_ok hfirst.read t false .done,
      change_session_of_ok hfirst.read t false .done⟩

def promoted (parents : List String) : Roster :=
  ⟨⟨[(.named "staff", ⟨.text "staff",
      ⟨none, none, ⟨[("posts", ["edit", "read"])]⟩, none⟩⟩),
    (.named "lead", ⟨.text "lead", ⟨none, none, .empty, some parents⟩⟩)]⟩⟩

theorem merges_in_batches_staffed :
    ∃ built batch one both,
      staffed.Batches revision (promotion (.list [.text "staff"])) built batch one both := by
  have hpromotion : (promotion (.list [.text "staff"])).Describes (promoted ["staff"]) :=
    ⟨Value.vetted_of_written (by decide), rfl⟩
  exact merges_in_batches staffed staffed_reachable revision _ revised _ revision_describes
    hpromotion

end Session

end RoleAccess

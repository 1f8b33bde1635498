import RoleAccess.Proofs.Roster.Stated
import RoleAccess.Proofs.Session.Update

namespace RoleAccess

namespace Value

-- A configuration that is valid, with the roster that it reads as.
structure Describes (configuration : Value) (update : Roster) : Prop where
  vetted : configuration.Vetted
  read : Roster.ofValue? configuration = .ok update

theorem Describes.wellFormed {configuration : Value} {update : Roster}
    (h : configuration.Describes update) : update.WellFormed :=
  Roster.wellFormed_of_ofValue? h.vetted h.read

theorem vetted_of_written {es : List (Value × Value)} (h : ∀ e ∈ es, e.2.kind ≠ .role) :
    (map es).Vetted := by
  rintro _ ⟨⟩ e he r hr
  exact absurd (congrArg kind hr) (h e he)

theorem describes_empty : (map []).Describes .empty :=
  ⟨vetted_of_written (by simp), rfl⟩

end Value

-- The roles of a roster, listed as they are or written out, are a configuration that says the same.
theorem Roster.WellFormed.describes_toValue {roster : Roster} (h : roster.WellFormed) :
    ∀ write ∈ [Value.role, Role.toValue], (roster.toValue write).Describes roster := by
  intro write hwrite
  rcases List.mem_pair.mp hwrite with rfl | rfl
  · exact ⟨Roster.vetted_toValue h fun _ _ hrole => (Value.role.inj hrole).symm,
      h.ofValue?_toValue fun _ _ => rfl⟩
  · exact ⟨Roster.vetted_toValue h fun _ _ hrole => Value.noConfusion hrole,
      h.ofValue?_toValue fun filed hfiled => (h.roles filed hfiled).ofValue?_toValue⟩

namespace Session

-- The session merges the configurations in, one after the other, and accepts them all.
inductive Takes : Session → List Value → Session → Prop where
  | done (s : Session) : Takes s [] s
  | next (s t : Session) (configuration : Value) (rest : List Value)
    (haccepted : (s.run (.merge configuration)).answer = .ok .done)
    (hrest : Takes (s.run (.merge configuration)).session rest t) :
    Takes s (configuration :: rest) t

-- Valid configurations are accepted whatever the session is, and their rosters add up.
theorem takes_of_describes {configurations : List Value} {updates : List Roster}
    (h : List.Forall₂ Value.Describes configurations updates) (s : Session) :
    s.Takes configurations { s with roster := updates.foldl Roster.merge s.roster } := by
  induction h generalizing s with
  | nil => exact .done s
  | @cons configuration update rest _ hfirst _ ih =>
      have hsession : (s.run (.merge configuration)).session =
          { s with roster := s.roster.merge update } :=
        change_session_of_ok hfirst.read s true .done
      refine .next s _ configuration rest (change_answer_of_ok hfirst.read s true .done) ?_
      rw [hsession]
      exact ih _

theorem takes_one {configuration : Value} {update : Roster}
    (h : configuration.Describes update) (s : Session) :
    s.Takes [configuration] { s with roster := s.roster.merge update } :=
  s.takes_of_describes (.cons h .nil)

theorem takes_two {first second : Value} {u v : Roster} (hfirst : first.Describes u)
    (hsecond : second.Describes v) (s : Session) :
    s.Takes [first, second] { s with roster := (s.roster.merge u).merge v } :=
  s.takes_of_describes (.cons hfirst (.cons hsecond .nil))

end Session

end RoleAccess

import RoleAccess.Proofs.Roster.Unrepeated
import RoleAccess.Proofs.Session.Precedence

namespace RoleAccess.Session

-- Nothing comes twice in what the session answers: no role among all roles, no resource of a role,
-- and no token that is given to a role or holds for it. Equal keys stand for one role, so roles are
-- told apart by what their keys file them under.
structure Unrepeated (s : Session) : Prop where
  roles : ∃ keys, (s.run .roles).answer = .ok (.keys keys) ∧ (keys.map RoleId.ofKey).Nodup
  definition : ∀ id role, (s.run (.definition id)).answer = .ok (.definition (some role)) →
    role.permissions.keys.Nodup ∧ ∀ tokens ∈ role.permissions.values, tokens.Nodup
  resources : ∀ id, ∃ resources, (s.run (.resources id)).answer = .ok (.texts resources) ∧
    resources.Nodup
  directTokens : ∀ id resource, ∃ tokens,
    (s.run (.directTokens id resource)).answer = .ok (.texts tokens) ∧ tokens.Nodup
  tokens : ∀ id resource, ∃ tokens,
    (s.run (.tokens id resource)).answer = .ok (.texts tokens) ∧ tokens.Nodup
  allTokens : ∀ id, ∃ table, (s.run (.allTokens id)).answer = .ok (.tokenTable table) ∧
    table.keys.Nodup ∧ ∀ tokens ∈ table.values, tokens.Nodup

theorem unrepeated_of_wellFormed {s : Session} (h : s.roster.WellFormed) : s.Unrepeated where
  roles := ⟨_, rfl, h.nodup_keys⟩
  definition id role hrole := by
    have hget : s.roster.get? id = some role := by simpa [run, reply] using hrole
    have hwell := h.role_of_get? hget
    exact ⟨hwell.resources, hwell.tokens⟩
  resources id := ⟨_, rfl, h.nodup_resources id⟩
  directTokens id resource := ⟨_, rfl, h.nodup_directTokens id resource⟩
  tokens id resource := ⟨_, rfl, s.roster.nodup_resolve id resource⟩
  allTokens id := by
    obtain ⟨hkeys, htokens⟩ := s.roster.tokensOnce_resolveAll id
    refine ⟨_, rfl, hkeys, ?_⟩
    intro tokens hmem
    obtain ⟨e, he, rfl⟩ := List.mem_map.mp hmem
    exact htokens e he

-- A session is without repetitions from its start on and after every command of a run, be it
-- accepted or refused, and whatever configurations the commands bring along.
theorem run_unrepeated (settings : Settings) (configuration : Value) (s : Session)
    (hvetted : configuration.Vetted) (hstart : (start? settings configuration).1 = .ok s)
    (cs : List Command) (hcs : ∀ c ∈ cs, c.Vetted) :
    ∀ t ∈ s :: (s.runAll cs).map (·.session), t.Unrepeated := by
  have hs : s.Reachable := .start settings configuration s hvetted hstart
  intro t ht
  rcases List.mem_cons.mp ht with rfl | hlater
  · exact unrepeated_of_wellFormed hs.wellFormed
  · obtain ⟨outcome, houtcome, rfl⟩ := List.mem_map.mp hlater
    exact unrepeated_of_wellFormed (hs.runAll hcs outcome houtcome).wellFormed

-- A run in which tokens come twice at the start and again in an update, which is refused at first
-- and then taken, and in which roles are handed over as they are.
def repeating : Value :=
  .map [(.text "staff", .map [(.text "permissions",
    .map [(.text "posts", .list [.text "read", .text "read"])])])]

def changes : List Command :=
  [.merge (promotion (.text "staff")), .merge revision, .update (revised.toValue .role) true,
    .replace repeating]

theorem run_unrepeated_changes :
    (start? .default repeating).1 = .ok staffed ∧
    ∀ t ∈ staffed :: (staffed.runAll changes).map (·.session), t.Unrepeated := by
  have hstart : (start? .default repeating).1 = .ok staffed := rfl
  have hrepeating : repeating.Vetted := Value.vetted_of_written (by decide)
  have hcs : ∀ c ∈ changes, c.Vetted := by
    simp only [changes, List.forall_mem_cons]
    refine ⟨?_, ?_, ?_, ?_, by simp⟩ <;> rintro _ ⟨⟩
    · exact Value.vetted_of_written (by decide)
    · exact revision_describes.vetted
    · exact (revision_describes.wellFormed.describes_toValue _ List.mem_cons_self).vetted
    · exact hrepeating
  exact ⟨hstart, run_unrepeated .default repeating staffed hrepeating hstart changes hcs⟩

end RoleAccess.Session

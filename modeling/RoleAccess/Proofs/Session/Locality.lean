import RoleAccess.Proofs.Roster.Locality
import RoleAccess.Proofs.Session.Growth

namespace RoleAccess

-- The role that a question is about.
def Command.subject? : Command → Option RoleId
  | can role _ _ | explain role _ _ | has role _ _ | hasWildcard role _ | inheritsFrom role _
  | displayName role | description role | parents role | ancestors role | resources role
  | tokens role _ | directTokens role _ | allTokens role | definition role
  | editedDefinition role _ _ _ | contains role => some role
  | roles | size | settings | literals | update _ _ | merge _ | replace _ => none

namespace Session

theorem answer_eq_of_sameAbove {s t : Session} {id : RoleId}
    (h : s.roster.SameAbove t.roster id) {c : Command} (hc : c.subject? = some id) :
    (s.run c).answer = (t.run c).answer := by
  cases c with
  | can | explain | has | hasWildcard | tokens | allTokens =>
      exact answer_eq_of_sameTokens h.sameTokens hc
  | roles | size | settings | literals | update _ _ | merge _ | replace _ => cases hc
  | _ =>
      cases hc
      simp only [run, reply, h.inheritsFrom_eq, h.displayName_eq, h.ancestors_eq,
        h.contains_eq .refl, Roster.description, Roster.parents, Roster.resources,
        Roster.permissions, Roster.directTokens, h.get?_eq]

-- An update is out of reach for a role that does not come to anybody it names. Whatever is asked
-- about such a role, the answer is the one from before.
theorem takes_out_of_reach (s : Session) (configuration : Value) (update : Roster)
    (h : configuration.Describes update) (id : RoleId)
    (hid : ∀ a, s.roster.lineage.Reaches id a → update.contains a = false) :
    ∃ t, s.Takes [configuration] t ∧ (s.run (.update configuration true)).session = t ∧
      ∀ c : Command, c.subject? = some id → (t.run c).answer = (s.run c).answer := by
  have hsame := s.roster.sameAbove_merge h.wellFormed.ids hid
  refine ⟨_, takes_one h s, change_session_of_ok h.read s true .self, fun c hc => ?_⟩
  exact (answer_eq_of_sameAbove hsame hc).symm

-- A new role below the one that is asked about.
def visit : Value :=
  .map [(.text "guest", .map [(.text "permissions",
      .map [(.text "posts", .list [.text "*"])]),
    (.text "inherits", .list [.text "lead"])])]

def visiting : Roster :=
  ⟨⟨[(.named "guest", ⟨.text "guest",
      ⟨none, none, ⟨[("posts", ["*"])]⟩, some ["lead"]⟩⟩)]⟩⟩

theorem takes_out_of_reach_haunted :
    ∃ t, haunted.Takes [visit] t ∧
      (∀ request, (t.run (.explain (.named "lead") request "posts")).answer =
        (haunted.run (.explain (.named "lead") request "posts")).answer) ∧
      (t.run (.inheritsFrom (.named "lead") (.named "guest"))).answer = .ok (.truth false) := by
  have hvisit : visit.Describes visiting := ⟨Value.vetted_of_written (by decide), rfl⟩
  have hreached : ∀ a ∈ haunted.roster.lineage.reached (.named "lead"),
      visiting.contains a = false := by decide +kernel
  obtain ⟨t, ht, _, hanswers⟩ := takes_out_of_reach haunted visit visiting hvisit (.named "lead")
    fun a ha => hreached a ((Lineage.mem_reached_iff _ _ _).mpr ha)
  exact ⟨t, ht, fun request => hanswers _ rfl, hanswers _ rfl⟩

end Session

end RoleAccess

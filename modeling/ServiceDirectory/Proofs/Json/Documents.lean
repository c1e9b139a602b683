import ServiceDirectory.Change
import ServiceDirectory.Proofs.Json.RoundTrip
import ServiceDirectory.Response

/-!
# The documents of the directory

Responses and notices hold no numbers and are nested at most three levels deep.  So every text that the
directory sends is read back as the value that was written, by a reader that is far less deep than the
one in use.
-/

namespace ServiceDirectory

open Json (Plain parse? maxDepth)

/-- An object of texts. -/
theorem Json.plain_of_texts {members : List (String × Json)}
    (h : ∀ member ∈ members, ∃ text, member.2 = .string text) (room : Nat) :
    Plain (room + 1) (.object members) := by
  intro member hm
  obtain ⟨text, htext⟩ := h member hm
  rw [htext]
  cases room <;> exact trivial

theorem Entry.plain_toJson (entry : Entry) (room : Nat) : Plain (room + 1) entry.toJson :=
  Json.plain_of_texts (by simp) room

theorem Response.plain_toJson (response : Response) : Plain maxDepth response.toJson := by
  intro member hm
  rcases List.mem_cons.mp hm with rfl | hm
  · exact trivial
  rcases List.mem_cons.mp hm with rfl | hm
  · exact trivial
  cases hl : response.list with
  | none =>
    rw [hl] at hm
    exact nomatch hm
  | some entries =>
    rw [hl] at hm
    obtain rfl := List.mem_singleton.mp hm
    intro item hi
    obtain ⟨entry, _, rfl⟩ := List.mem_map.mp hi
    exact entry.plain_toJson _

theorem Change.plain_toJson (change : Change) : Plain maxDepth change.toJson := by
  cases change with
  | registered entry =>
    intro member hm
    simp only [List.mem_cons, List.not_mem_nil, or_false] at hm
    rcases hm with rfl | rfl
    · exact trivial
    · exact entry.plain_toJson _
  | unregistered id => exact Json.plain_of_texts (by simp) _
  | addressUpdated id address => exact Json.plain_of_texts (by simp) _

/-- A response is read back as it was written. -/
theorem Response.parse?_render (response : Response) :
    parse? response.render = some response.toJson :=
  Json.parse?_render response.plain_toJson

/-- A notice is read back as it was written. -/
theorem Change.parse?_render (change : Change) :
    parse? change.toJson.render = some change.toJson :=
  Json.parse?_render change.plain_toJson

end ServiceDirectory

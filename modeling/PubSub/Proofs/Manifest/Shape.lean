import PubSub.Proofs.Manifest.RoundTrip
/-!
# The shape of what is served

What subscribers rely on in the object of a topic without looking at what was declared (`WellShaped`): one way to
deliver, rules where there is a table for them, and nothing in it that stands for the absence of something.
-/
namespace PubSub

/-- The member of a name, if the document is an object that has one. -/
def Json.member? (name : Text) : Json → Option Json
  | .obj members => Assoc.find? name members
  | _ => none

namespace Manifest

/-- An object that says unambiguously where the events of a topic go. -/
structure WellShaped (j : Json) : Prop where
  object : ∃ members, j = .obj members ∧ (Assoc.keys members).Nodup
  /-- It has one of a route and a routing table, and not the other. -/
  delivery : (j.member? (lit "route")).isSome ↔ j.member? (lit "routes") = none
  rules : ∀ routes, j.member? (lit "routes") = some routes →
    ∃ rules, routes.member? (lit "rules") = some (.arr rules) ∧ rules ≠ []
  noNull : j.Everywhere (· ≠ .null)
  metadata : j.member? (lit "metadata") ≠ some (.obj [])

/-! ## Members -/

theorem Entry.member?_wire (e : Entry) (name : Text) : e.wire.member? name = (Assoc.find? name e.slots).join := by
  rw [wire_eq]
  exact Assoc.find?_present e.properNames.1 name

theorem Routes.member?_toJson (r : Routes) (name : Text) : r.toJson.member? name = (Assoc.find? name r.slots).join := by
  rw [toJson_eq]
  exact Assoc.find?_present r.properNames.1 name

theorem metadataJson_ne_empty {metadata : List (Text × Text)} (h : metadata ≠ []) :
    metadataJson metadata ≠ .obj [] := by
  obtain ⟨m, ms, rfl⟩ := List.exists_cons_of_ne_nil h
  intro he
  have hk := congrArg Assoc.keys (Json.obj.inj he)
  have hm : Text.scrub m.1 ∈ Assoc.keys ([] : List (Text × Json)) := by
    rw [← hk, Assoc.ofPairs, Assoc.keys_insertAll]
    exact mem_foldl_addNew.2 (.inr List.mem_cons_self)
  cases hm

theorem noNull_wire (e : Entry) : e.wire.Everywhere (· ≠ .null) := by
  apply everywhere_wire
  · exact ⟨fun _ => nofun, fun _ => nofun, fun _ _ => nofun⟩
  · exact fun _ _ => nofun
  · exact fun _ _ => nofun

/-! ## Entries -/

/-- An entry with a route or a table with rules, and not with both, is served in proper shape. -/
theorem wellShaped_wire {e : Entry} (hd : e.route?.isSome ↔ e.routes? = none) (hr : ∀ r ∈ e.routes?, r.rules ≠ []) :
    WellShaped e.wire where
  object := ⟨_, e.wire_eq, e.properNames.1.sublist (Assoc.keys_present_sublist e.slots)⟩
  delivery := by
    have hroute : e.wire.member? (lit "route") = e.route?.map .str := e.member?_wire _
    have hroutes : e.wire.member? (lit "routes") = e.routes?.map Routes.toJson := e.member?_wire _
    rw [hroute, hroutes, Option.isSome_map, Option.map_eq_none_iff]
    exact hd
  rules := by
    intro routes hm
    have hroutes : e.wire.member? (lit "routes") = e.routes?.map Routes.toJson := e.member?_wire _
    rw [hroutes] at hm
    obtain ⟨r, he, rfl⟩ := Option.map_eq_some_iff.1 hm
    refine ⟨r.rules.map Rule.toJson, r.member?_toJson _, ?_⟩
    intro hn
    exact hr r he (List.map_eq_nil_iff.1 hn)
  noNull := noNull_wire e
  metadata := by
    have hm : e.wire.member? (lit "metadata") = if e.metadata = [] then none else some (metadataJson e.metadata) :=
      e.member?_wire _
    rw [hm]
    split
    · simp
    · next hne =>
      intro he
      exact metadataJson_ne_empty hne (Option.some.inj he)

end Manifest

end PubSub

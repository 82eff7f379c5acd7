import PubSub.Proofs.Manifest.Shape
import PubSub.Proofs.Registry.Adoption
import PubSub.Proofs.Registry.Serving
/-!
# What every registry keeps

Whatever was called before, a registry is sound, and its rules are those that callers handed over with an integer for
the priority. Each field of a sound registry is checked where it is set; that an entry has exactly one way to deliver is
checked nowhere and follows from all of them together (`callAll_sound_wellShaped`).
-/
namespace PubSub

open Manifest (Entry WellShaped)

namespace Subscription

/-- Events of a sound subscription have one way to go, the default path or the rules. -/
theorem Sound.wellShaped_entryWith {s : Subscription} (h : s.Sound) (bulk? : Option Manifest.Bulk) :
    WellShaped (s.entryWith bulk?).wire := by
  by_cases hr : s.IsRouted
  · have hroute : (s.entryWith bulk?).route? = none := if_pos hr
    have hroutes : (s.entryWith bulk?).routes? = some ⟨s.listedRules, s.defaultPath?⟩ := if_pos hr
    apply Manifest.wellShaped_wire
    · simp [hroute, hroutes]
    · intro r hm
      rw [hroutes] at hm
      cases hm
      intro hn
      have hp := List.mergeSort_perm s.rules fun a b => a.priority ≤ b.priority
      exact hr (List.perm_nil.1 (List.map_eq_nil_iff.1 hn ▸ hp.symm))
  · have hroute : (s.entryWith bulk?).route? = s.defaultPath? := if_neg hr
    have hroutes : (s.entryWith bulk?).routes? = none := if_neg hr
    have hd : s.defaultPath? ≠ none := h.delivered.resolve_left hr
    apply Manifest.wellShaped_wire
    · rw [hroute, hroutes, Option.isSome_iff_ne_none]
      exact iff_of_true hd rfl
    · rw [hroutes]
      exact nofun

end Subscription

namespace Registry

theorem Sound.wellShaped_entries {r : Registry} (h : r.Sound) {es : List Entry} (he : r.entries = .ok es) :
    ∀ e ∈ es, WellShaped e.wire := by
  intro e hm
  obtain ⟨s, -, hs, bulk?, -, rfl⟩ := exists_of_mem_right (h.entries_eq_ok_iff.1 he) hm
  exact hs.wellShaped_entryWith bulk?

/-- No two objects that are served are about one topic. -/
theorem Sound.nodup_served {r : Registry} (h : r.Sound) {es : List Entry} (he : r.entries = .ok es) :
    (es.map fun e => (e.wire.member? (lit "pubsubname"), e.wire.member? (lit "topic"))).Nodup := by
  have hm : (es.map fun e => (e.wire.member? (lit "pubsubname"), e.wire.member? (lit "topic"))) =
      r.keys.map fun key => (some (.str key.pubsub), some (.str key.topic)) := by
    rw [← h.topics_entries he, List.map_map]
    apply List.map_congr_left
    intro e _
    rw [Entry.member?_wire, Entry.member?_wire]
    rfl
  rw [hm]
  apply h.keys.map
  rintro ⟨p, t⟩ ⟨p', t'⟩ hk
  cases hk
  rfl

/-- A rule that is stored was handed over in a declaration that was accepted, with an integer for its priority. -/
theorem exists_delivers_of_mem {cs : List Call} {s : Subscription} (hs : s ∈ (empty.callAll cs).subscriptions)
    {rule : RoutingRule} (hr : rule ∈ s.rules) : ∃ d ∈ accepted cs, d.Delivers (.rule rule) := by
  obtain ⟨ts, hts, hh⟩ := remembers_empty.callAll cs
  have hst := hh s.key
  rw [standing_of_mem (sound_empty.callAll cs).keys hs] at hst
  obtain ⟨t, ht, htr⟩ := (hst.rules rule).1 hr
  obtain ⟨d, hd, hsays⟩ := exists_of_mem_right hts (List.mem_filter.1 ht).1
  have hdel := hsays.delivery
  rw [htr] at hdel
  exact ⟨d, hd, hdel⟩

/-- After any run of calls, accepted or refused, the registry is sound, each topic is found under its own key, and each
rule was handed over as it is. Hence the objects of the manifest, where there is one, are in proper shape and about
distinct topics. -/
theorem callAll_sound_wellShaped (cs : List Call) : (empty.callAll cs).Sound ∧
    (∀ s ∈ (empty.callAll cs).subscriptions, (empty.callAll cs).find? s.key = some s ∧
      ∀ rule ∈ s.rules, ∃ d ∈ accepted cs, d.Delivers (.rule rule)) ∧
    ∀ es, (empty.callAll cs).entries = .ok es → (∀ e ∈ es, WellShaped e.wire) ∧
      (es.map fun e => (e.wire.member? (lit "pubsubname"), e.wire.member? (lit "topic"))).Nodup := by
  have h := sound_empty.callAll cs
  refine ⟨h, fun s hs => ⟨find?_of_mem h.keys hs, fun rule hr => exists_delivers_of_mem hs hr⟩, fun es he => ?_⟩
  exact ⟨h.wellShaped_entries he, h.nodup_served he⟩

/-- A topic with rules, whose manifest comes out. -/
theorem callAll_sound_wellShaped_routed : ∃ es, (empty.callAll routedCalls).entries = .ok es ∧ es.length = 1 ∧
    (∀ e ∈ es, WellShaped e.wire) ∧
    (es.map fun e => (e.wire.member? (lit "pubsubname"), e.wire.member? (lit "topic"))).Nodup := by
  have h := sound_empty.callAll routedCalls
  obtain ⟨es, he⟩ : ∃ es, (empty.callAll routedCalls).entries = .ok es := by
    have hl : (empty.callAll routedCalls).subscriptions.map Subscription.bulk? =
        [some ⟨.bool true, some ⟨5, by decide⟩, none⟩] := rfl
    apply h.entries_isOk_iff.2
    intro s hs b hb
    have hm := List.mem_map_of_mem (f := Subscription.bulk?) hs
    rw [hl, hb, List.mem_singleton] at hm
    cases hm
    trivial
  have hn : es.length = (empty.callAll routedCalls).keys.length := by
    rw [← h.topics_entries he, List.length_map]
  exact ⟨es, he, hn, (callAll_sound_wellShaped routedCalls).2.2 es he⟩

end Registry

end PubSub

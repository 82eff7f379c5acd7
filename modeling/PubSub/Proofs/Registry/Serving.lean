import PubSub.Proofs.Subscription.Entry
import PubSub.Registry.Manifest
/-!
# What a registry serves

When a registry has a manifest, and what is read from the manifest that is served. Declaring checks all that building an
entry checks but one thing: `enabled` of bulk settings is taken as it comes. So a registry is served exactly if every
`enabled` in it stands for a truth value and no bound is too long to be written (`serves_iff`).
-/
namespace PubSub

open Manifest (Entry)

/-! ## Integers of entries -/

/-- The bounds that are set. -/
def BulkSettings.integers (b : BulkSettings) : List Int :=
  (b.maxMessages?.map Subtype.val).toList ++ (b.maxAwaitMs?.map Subtype.val).toList

theorem Subscription.integers_entryWith {s : Subscription} {bulk? : Option Manifest.Bulk}
    (h : Option.Rel (fun b w => b.toBulk = .ok w) s.bulk? bulk?) :
    (s.entryWith bulk?).integers = s.bulk?.toList.flatMap BulkSettings.integers := by
  show bulk?.toList.flatMap Manifest.Bulk.integers = _
  generalize s.bulk? = b? at h
  cases h with
  | none => rfl
  | some hw =>
    obtain ⟨-, hm, hw⟩ := BulkSettings.toBulk_eq_ok_iff.1 hw
    simp only [Option.toList_some, List.flatMap_singleton, Manifest.Bulk.integers, BulkSettings.integers, hm, hw]

/-- An entry that is written has no integer that is too long. -/
theorem Manifest.short_integers {e : Entry} (h : e.wire.Everywhere Json.Short) : ∀ i ∈ e.integers, ¬ Json.IsLong i := by
  intro i hi
  obtain ⟨b, hb, hi⟩ := List.mem_flatMap.1 hi
  rw [Entry.wire_eq] at h
  have he : (lit "bulkSubscribe", some b.toJson) ∈ e.slots := by
    simp [Entry.slots, Entry.slotsWith, Option.mem_toList.1 hb]
  have hj := Json.everywhereMembers_iff.1 h.2 _ (Assoc.mem_present.2 he)
  rw [Bulk.toJson_eq] at hj
  have hx : ∀ name, (name, some (Json.int i)) ∈ b.slots → ¬ Json.IsLong i := fun name hs =>
    Json.everywhereMembers_iff.1 hj.2 _ (Assoc.mem_present.2 hs)
  rcases List.mem_append.1 hi with hi | hi
  · obtain ⟨n, hn, rfl⟩ := Option.map_eq_some_iff.1 (Option.mem_toList.1 hi)
    exact hx (lit "maxMessagesCount") (by simp [Bulk.slots, hn])
  · obtain ⟨n, hn, rfl⟩ := Option.map_eq_some_iff.1 (Option.mem_toList.1 hi)
    exact hx (lit "maxAwaitDurationMs") (by simp [Bulk.slots, hn])

namespace Registry

/-! ## Entries of a sound registry -/

/-- An entry is made of what is declared for a topic, and that is sound. -/
def MadeFrom (s : Subscription) (e : Entry) : Prop :=
  s.Sound ∧ ∃ bulk?, Option.Rel (fun b w => b.toBulk = .ok w) s.bulk? bulk? ∧ e = s.entryWith bulk?

theorem Sound.entries_eq_ok_iff {r : Registry} (h : r.Sound) {es : List Entry} :
    r.entries = .ok es ↔ List.Forall₂ MadeFrom r.subscriptions es := by
  have hf : List.Forall₂ MadeFrom r.subscriptions es ↔
      (∀ s ∈ r.subscriptions, s.Sound) ∧ List.Forall₂ (fun s e => s.toEntry = .ok e) r.subscriptions es := by
    rw [← List.forall₂_and_left]
    have hr : MadeFrom = fun s e => s.Sound ∧ s.toEntry = .ok e := by
      funext s e
      exact propext (and_congr_right fun hs => (Subscription.toEntry_eq_ok_iff hs.names).symm)
    rw [hr]
  rw [hf, and_iff_right h.subscriptions]
  exact mapM_eq_ok_iff

/-- There is one entry for each topic. -/
theorem Sound.topics_entries {r : Registry} (h : r.Sound) {es : List Entry} (he : r.entries = .ok es) :
    (es.map fun e => TopicKey.mk e.pubsub e.topic) = r.keys := by
  rw [← List.forall₂_eq_eq_eq, Registry.keys, List.forall₂_map_left_iff, List.forall₂_map_right_iff]
  refine ((h.entries_eq_ok_iff.1 he).imp ?_).flip
  rintro s e ⟨-, bulk?, -, rfl⟩
  rfl

theorem Sound.entries_isOk_iff {r : Registry} (h : r.Sound) :
    (∃ es, r.entries = .ok es) ↔ ∀ s ∈ r.subscriptions, ∀ b ∈ s.bulk?, b.enabled.StandsForBool := by
  refine mapM_isOk_iff.trans (forall₂_congr fun s hs => ?_)
  exact Subscription.toEntry_isOk_iff (h.subscriptions s hs).names

/-- The entries of a sound registry are served and read back if their bounds can be written. -/
theorem Sound.render_decode {r : Registry} (h : r.Sound) {es : List Entry} (he : r.entries = .ok es)
    (hi : ∀ s ∈ r.subscriptions, ∀ b ∈ s.bulk?, ∀ i ∈ b.integers, ¬ Json.IsLong i) :
    ∃ bs, r.render = .ok bs ∧ Manifest.decode (.bytes bs) = .ok es := by
  have hm : ∀ e ∈ es, e.Admitted ∧ (∀ t ∈ e.texts, Text.Encodable t) ∧ ∀ i ∈ e.integers, ¬ Json.IsLong i := by
    intro e hx
    obtain ⟨s, hs, hc, bulk?, hb, rfl⟩ := exists_of_mem_right (h.entries_eq_ok_iff.1 he) hx
    refine ⟨hc.admitted bulk?, hc.encodable bulk?, fun i hx => ?_⟩
    rw [Subscription.integers_entryWith hb] at hx
    obtain ⟨b, hb, hx⟩ := List.mem_flatMap.1 hx
    exact hi s hs b (Option.mem_toList.1 hb) i hx
  obtain ⟨bs, henc, hdec⟩ := Manifest.exists_encode_decode (fun e hx => (hm e hx).1) (fun e hx => (hm e hx).2.1)
    fun e hx => (hm e hx).2.2
  refine ⟨bs, ?_, hdec⟩
  simp only [render, he, bind_eq_ok_iff, mapError_eq_ok_iff, Except.ok.injEq, exists_eq_left', henc]

/-- A sound registry is served exactly if each `enabled` stands for a truth value and each bound can be written. -/
theorem Sound.render_isOk_iff {r : Registry} (h : r.Sound) :
    (∃ bs, r.render = .ok bs) ↔
      ∀ s ∈ r.subscriptions, ∀ b ∈ s.bulk?, b.enabled.StandsForBool ∧ ∀ i ∈ b.integers, ¬ Json.IsLong i := by
  constructor
  · rintro ⟨bs, hr⟩ s hs b hb
    simp only [render, bind_eq_ok_iff, mapError_eq_ok_iff] at hr
    obtain ⟨es, he, hr⟩ := hr
    refine ⟨h.entries_isOk_iff.1 ⟨es, he⟩ s hs b hb, fun i hi => ?_⟩
    simp only [Manifest.encode, bind_eq_ok_iff, mapError_eq_ok_iff] at hr
    obtain ⟨t, ht, -⟩ := hr
    have hd := Json.write_isOk_iff.1 ⟨t, ht⟩
    -- A bound of the settings is an integer of the topic's entry, and the entry stands in the written document.
    obtain ⟨e, hm, -, bulk?, hrel, rfl⟩ := exists_of_mem_left (h.entries_eq_ok_iff.1 he) hs
    refine Manifest.short_integers (Json.everywhereItems_iff.1 hd.2 _ (List.mem_map_of_mem hm)) i ?_
    rw [Subscription.integers_entryWith hrel]
    exact List.mem_flatMap.2 ⟨b, Option.mem_toList.2 hb, hi⟩
  · intro hb
    obtain ⟨es, he⟩ := h.entries_isOk_iff.2 fun s hs b hm => (hb s hs b hm).1
    obtain ⟨bs, hr, -⟩ := h.render_decode he fun s hs b hm => (hb s hs b hm).2
    exact ⟨bs, hr⟩

end Registry

/-! ## What is served after any run -/

/-- After any run of calls, accepted or refused, the entries come out exactly if every `enabled` of bulk settings stands
for a truth value; they are served exactly if, besides, no bound is too long to be written. -/
theorem serves_iff (cs : List Call) :
    ((∃ es, (Registry.empty.callAll cs).entries = .ok es) ↔
      ∀ s ∈ (Registry.empty.callAll cs).subscriptions, ∀ b ∈ s.bulk?, b.enabled.StandsForBool) ∧
    ((∃ bs, (Registry.empty.callAll cs).render = .ok bs) ↔
      ∀ s ∈ (Registry.empty.callAll cs).subscriptions, ∀ b ∈ s.bulk?,
        b.enabled.StandsForBool ∧ ∀ i ∈ b.integers, ¬ Json.IsLong i) := by
  have h := Registry.sound_empty.callAll cs
  exact ⟨h.entries_isOk_iff, h.render_isOk_iff⟩

/-- A declaration with bulk settings of which nobody can tell whether they are enabled. -/
def unclearDeclaration : Declaration :=
  { pubsub := .text (lit "pubsub"), topic := .text (lit "orders"), route := .text (lit "/orders"),
    bulk := .settings (.text (lit "maybe")) none none }

/-- The declaration is accepted, and from then on there is no manifest. -/
theorem unclear_accepted_not_served :
    (∃ key r, Registry.empty.register unclearDeclaration = .ok (key, r)) ∧
    (¬ ∃ es, (Registry.empty.callAll [.register unclearDeclaration]).entries = .ok es) ∧
    ¬ ∃ bs, (Registry.empty.callAll [.register unclearDeclaration]).render = .ok bs := by
  refine ⟨⟨_, _, rfl⟩, ?_, ?_⟩
  · rintro ⟨es, h⟩
    cases h
  · rintro ⟨bs, h⟩
    cases h

/-- After any run of calls, accepted or refused, in which `enabled` of the settings that are stored is a truth value and
their bounds can be written, the manifest is served, and what is read from it are entries that say, topic by topic, what
is declared. -/
theorem render_describes (cs : List Call)
    (h : ∀ s ∈ (Registry.empty.callAll cs).subscriptions, ∀ b ∈ s.bulk?,
      (∃ x, b.enabled = .bool x) ∧ ∀ i ∈ b.integers, ¬ Json.IsLong i) :
    ∃ bs es, (Registry.empty.callAll cs).render = .ok bs ∧ Manifest.decode (.bytes bs) = .ok es ∧
      es.length = (Registry.empty.callAll cs).size ∧ es.mapM Entry.key = .ok (Registry.empty.callAll cs).keys ∧
      List.Forall₂ Subscription.Describes (Registry.empty.callAll cs).subscriptions es := by
  have hs := Registry.sound_empty.callAll cs
  -- From here on the registry is any sound one; the calls that led to it no longer matter.
  generalize Registry.empty.callAll cs = r at h hs ⊢
  have hb : ∀ s ∈ r.subscriptions, ∀ b ∈ s.bulk?, b.enabled.StandsForBool := by
    intro s hm b hb
    obtain ⟨x, hx⟩ := (h s hm b hb).1
    rw [hx]
    trivial
  obtain ⟨es, he⟩ := hs.entries_isOk_iff.2 hb
  obtain ⟨bs, hr, hd⟩ := hs.render_decode he fun s hm b hb => (h s hm b hb).2
  have hf := hs.entries_eq_ok_iff.1 he
  refine ⟨bs, es, hr, hd, hf.length_eq.symm, ?_, ?_⟩
  · rw [mapM_eq_ok_iff, Registry.keys, List.forall₂_map_right_iff]
    refine (hf.imp ?_).flip
    rintro s e ⟨hc, bulk?, -, rfl⟩
    exact TopicKey.ofValues_eq_ok_iff.2 ⟨⟨⟨rfl, hc.pubsub.1⟩, hc.pubsub.2⟩, ⟨rfl, hc.topic.1⟩, hc.topic.2⟩
  · have hx : ∀ s ∈ r.subscriptions, ∀ b ∈ s.bulk?, ∃ x, b.enabled = .bool x := fun s hm b hb => (h s hm b hb).1
    refine ((List.forall₂_and_left _ _).2 ⟨hx, hf⟩).imp ?_
    rintro s e ⟨hx, hc, bulk?, hb, rfl⟩
    exact hc.describes hb hx

/-- Two rules for the topic in descending priority, a path for the rest, metadata and bulk settings. -/
def routedCalls : List Call :=
  [.register { pubsub := .text (lit "pubsub"), topic := .text (lit "orders"), route := .text (lit "/big"),
               condition := .text (lit "size > 9"), priority := .int 2,
               metadata := .mapping [(.text (lit "b"), .text (lit "1")), (.text (lit "a"), .text (lit "ü\n"))] },
    .register { pubsub := .text (lit "pubsub"), topic := .text (lit "orders"), route := .text (lit "/small"),
                condition := .text (lit "size < 2"), priority := .int 1,
                bulk := .settings (.bool true) (some ⟨5, by decide⟩) none },
    .register { pubsub := .text (lit "pubsub"), topic := .text (lit "orders"), route := .text [],
                deadLetter := .text (lit "dead") }]

theorem render_describes_routed :
    (∀ s ∈ (Registry.empty.callAll routedCalls).subscriptions, ∀ b ∈ s.bulk?,
      (∃ x, b.enabled = .bool x) ∧ ∀ i ∈ b.integers, ¬ Json.IsLong i) ∧
    ∃ bs es, (Registry.empty.callAll routedCalls).render = .ok bs ∧ Manifest.decode (.bytes bs) = .ok es ∧
      es.length = (Registry.empty.callAll routedCalls).size ∧
      es.mapM Entry.key = .ok (Registry.empty.callAll routedCalls).keys ∧
      List.Forall₂ Subscription.Describes (Registry.empty.callAll routedCalls).subscriptions es := by
  have h : ∀ s ∈ (Registry.empty.callAll routedCalls).subscriptions, ∀ b ∈ s.bulk?,
      (∃ x, b.enabled = .bool x) ∧ ∀ i ∈ b.integers, ¬ Json.IsLong i := by
    have hl : (Registry.empty.callAll routedCalls).subscriptions.map Subscription.bulk? =
        [some ⟨.bool true, some ⟨5, by decide⟩, none⟩] := rfl
    intro s hs b hb
    have hm := List.mem_map_of_mem (f := Subscription.bulk?) hs
    rw [hl, hb, List.mem_singleton] at hm
    cases hm
    refine ⟨⟨true, rfl⟩, fun i hi => ?_⟩
    rw [List.mem_singleton.1 hi]
    exact Json.not_isLong (by decide : 1 ≤ Json.maxDigits) (by decide)
  exact ⟨h, render_describes routedCalls h⟩

end PubSub

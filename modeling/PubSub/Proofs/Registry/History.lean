import PubSub.Proofs.Registry.Adoption
/-!
# A registry is its history

A declaration comes to one set of terms at most (`Says.unique`). After any run, those of the declarations accepted since
the registry was last cleared say everything about it (`callAll_recounts`): which topics there are and in which order,
and for each topic its rules in order, its default path and dead letter topic, what stands under each name of metadata,
and its bulk settings.
-/
namespace PubSub

/-! ## One reading -/

theorem Value.IsText.unique {v : Value} {t u : Text} (ht : v.IsText t) (hu : v.IsText u) : t = u :=
  Value.text.inj (ht.1.symm.trans hu.1)

namespace Declaration

variable {d : Declaration}

theorem Delivers.unique {x y : Delivery} (hx : d.Delivers x) (hy : d.Delivers y) : x = y := by
  cases x <;> cases y
  case default.default p q => rw [hx.2.unique hy.2]
  case default.rule p s => exact absurd hy.1 hx.1
  case rule.default r q => exact absurd hx.1 hy.1
  case rule.rule r s =>
    have hr := RoutingRule.ofValues_eq_ok_iff.2 hx.2
    rw [RoutingRule.ofValues_eq_ok_iff.2 hy.2] at hr
    cases hr
    rfl

theorem NamesDeadLetter.unique {x? y? : Option Text} (hx : d.NamesDeadLetter x?) (hy : d.NamesDeadLetter y?) :
    x? = y? := by
  cases x? <;> cases y?
  case none.none => rfl
  case none.some y => exact absurd hy.1 hx
  case some.none x => exact absurd hx.1 hy
  case some.some x y => rw [hx.2.unique hy.2]

theorem GivesMetadata.unique {m m' : List (Text × Text)} (h : d.GivesMetadata m) (h' : d.GivesMetadata m') :
    m = m' := by
  rcases h with ⟨hn, rfl⟩ | ⟨hg, entries, he, hm⟩ <;> rcases h' with ⟨hn', rfl⟩ | ⟨hg', entries', he', hm'⟩
  · rfl
  · exact absurd hg' hn
  · exact absurd hg hn'
  · cases he.symm.trans he'
    clear * - hm hm'
    induction hm generalizing m' with
    | nil =>
      cases hm'
      rfl
    | cons hp _ ih =>
      obtain _ | ⟨hp', hm'⟩ := hm'
      rw [Prod.ext (hp.1.unique hp'.1) (hp.2.unique hp'.2), ih hm']

theorem SetsBulk.unique {b? c? : Option BulkSettings} (hb : d.SetsBulk b?) (hc : d.SetsBulk c?) : b? = c? := by
  cases b? <;> cases c?
  case none.none => rfl
  case none.some c => cases hb.symm.trans hc
  case some.none b => cases hc.symm.trans hb
  case some.some b c =>
    rw [← BulkSettings.ofValue?_eq_some_iff.2 hb, ← BulkSettings.ofValue?_eq_some_iff.2 hc]

/-- A declaration comes to one set of terms at most. -/
theorem Says.unique {t u : Terms} (ht : d.Says t) (hu : d.Says u) : t = u := by
  have hk : t.key = u.key := by
    have h := TopicKey.ofValues_eq_ok_iff.2 ⟨ht.pubsub, ht.topic⟩
    rw [TopicKey.ofValues_eq_ok_iff.2 ⟨hu.pubsub, hu.topic⟩] at h
    exact (Except.ok.inj h).symm
  have hx := ht.delivery.unique hu.delivery
  have hl := ht.deadLetter.unique hu.deadLetter
  have hm := ht.metadata.unique hu.metadata
  have hb := ht.bulk.unique hu.bulk
  cases t
  cases u
  simp only at hk hx hl hm hb
  rw [hk, hx, hl, hm, hb]

theorem forall₂_says_iff {ds : List Declaration} {ts : List Terms} (h : List.Forall₂ Says ds ts) {us : List Terms} :
    List.Forall₂ Says ds us ↔ us = ts := by
  constructor
  · intro hu
    induction h generalizing us with
    | nil =>
      cases hu
      rfl
    | cons ht _ ih =>
      obtain _ | ⟨hu, hus⟩ := hu
      rw [hu.unique ht, ih hus]
  · rintro rfl
    exact h

end Declaration

/-! ## One topic -/

namespace Subscription

/-- What is declared for a topic is read off the terms that were accepted for it, in the order of their acceptance. -/
structure Recounts (s : Subscription) (log : List Terms) : Prop where
  /-- Each rule once, where it first came. -/
  rules : s.rules = (log.filterMap Terms.rule?).eraseDups
  /-- The path that the terms without a condition have in common. -/
  default : ∀ path, s.defaultPath? = some path ↔ ∃ t ∈ log, t.delivery = .default path
  deadLetter : ∀ topic, s.deadLetter? = some topic ↔ ∃ t ∈ log, t.deadLetter? = some topic
  /-- Each name once, where it first came. -/
  names : Assoc.keys s.metadata = (log.flatMap fun t => Assoc.keys t.metadata).eraseDups
  /-- The last terms that give a value to a name count. -/
  values : ∀ name, Assoc.find? name s.metadata = latest? (Terms.value? name) log
  bulk : s.bulk? = latest? Terms.bulk? log

/-- What the terms of a topic make of a subscription without anything recounts them. -/
theorem Holds.recounts {key : TopicKey} {log : List Terms} (h : (({ key } : Subscription).adoptAll log).Holds log) :
    (({ key } : Subscription).adoptAll log).Recounts log where
  rules := by
    rw [rules_adoptAll]
    exact foldl_addNew_nil _
  default := h.default
  deadLetter := h.deadLetter
  names := by
    have hk : Assoc.keys (log.flatMap Terms.metadata) = log.flatMap fun t => Assoc.keys t.metadata :=
      List.map_flatMap
    rw [metadata_adoptAll, Assoc.keys_insertAll, hk]
    exact foldl_addNew_nil _
  values := by
    intro name
    rw [find?_metadata_adoptAll]
    exact Option.or_none
  bulk := by
    rw [bulk?_adoptAll]
    exact Option.or_none

end Subscription

/-! ## A run -/

namespace Registry

/-- After any run, the topics are those of the accepted declarations, each once and where it first came, and what is
declared for a topic is read off those that are about it. -/
theorem callAll_recounts (cs : List Call) : ∃ log,
    (∀ ts, List.Forall₂ Declaration.Says (accepted cs) ts ↔ ts = log) ∧
    (empty.callAll cs).keys = (log.map Terms.key).eraseDups ∧
    ∀ s ∈ (empty.callAll cs).subscriptions, s.Recounts (log.filter fun t => t.key = s.key) := by
  obtain ⟨log, hlog, ha, hr⟩ := exists_adoptAll cs
  refine ⟨log, fun ts => Declaration.forall₂_says_iff hlog, ?_, fun s hs => ?_⟩
  · rw [hr, keys_adoptAll]
    exact foldl_addNew_nil _
  · rw [hr] at hs
    have hh := records_empty.adoptAll ha s.key
    rw [standing_adoptAll] at hh
    have hrec := Subscription.Holds.recounts hh
    rwa [← show s = _ from eq_adoptAll_of_mem hs] at hrec

end Registry

end PubSub

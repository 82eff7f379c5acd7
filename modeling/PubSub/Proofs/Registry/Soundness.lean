import PubSub.Proofs.Registry.Log
/-!
# What holds in every registry

Whatever callers hand over, and whichever calls are refused, a registry has each topic once and what is declared for it
is sound: names that are not blank, some delivery, rules with distinct priorities, metadata with distinct names, and
texts that UTF-8 carries throughout.
-/
namespace PubSub

/-- A name that is not blank and that UTF-8 carries. -/
def Text.IsName (t : Text) : Prop := Text.Encodable t ∧ ¬ Text.Blank t

/-- The texts of a rule are carried, and it has a condition. -/
structure RoutingRule.Sound (r : RoutingRule) : Prop where
  path : Text.Encodable r.path
  condition : Text.Encodable r.condition
  conditional : r.condition ≠ []

/-- What is declared for a topic is sound, though nothing may be declared yet. -/
structure Subscription.Clean (s : Subscription) : Prop where
  pubsub : Text.IsName s.key.pubsub
  topic : Text.IsName s.key.topic
  rules : ∀ r ∈ s.rules, r.Sound
  priorities : (s.rules.map RoutingRule.priority).Nodup
  default : ∀ path ∈ s.defaultPath?, Text.Encodable path
  deadLetter : ∀ topic ∈ s.deadLetter?, Text.Encodable topic
  names : (Assoc.keys s.metadata).Nodup
  metadata : ∀ m ∈ s.metadata, Text.Encodable m.1 ∧ Text.Encodable m.2

/-- What is declared for a topic is sound, and events have somewhere to go. -/
structure Subscription.Sound (s : Subscription) : Prop extends s.Clean where
  delivered : s.rules ≠ [] ∨ s.defaultPath? ≠ none

/-- Each topic is there once, and what is declared for it is sound. -/
structure Registry.Sound (r : Registry) : Prop where
  keys : r.keys.Nodup
  subscriptions : ∀ s ∈ r.subscriptions, s.Sound

/-! ## One declaration -/

namespace Subscription

theorem clean_of_says {d : Declaration} {t : Terms} (h : d.Says t) : ({ key := t.key } : Subscription).Clean where
  pubsub := ⟨h.pubsub.1.2, h.pubsub.2⟩
  topic := ⟨h.topic.1.2, h.topic.2⟩
  rules := nofun
  priorities := List.nodup_nil
  default := nofun
  deadLetter := nofun
  names := List.nodup_nil
  metadata := nofun

theorem sound_of_delivers {d : Declaration} {r : RoutingRule} (h : d.Delivers (.rule r)) : r.Sound := by
  obtain ⟨hg, hp, hc, -⟩ := h
  refine ⟨hp.2, hc.2, fun he => ?_⟩
  rw [hc.1, he] at hg
  exact hg rfl

theorem encodable_of_givesMetadata {d : Declaration} {metadata : List (Text × Text)} (h : d.GivesMetadata metadata) :
    ∀ m ∈ metadata, Text.Encodable m.1 ∧ Text.Encodable m.2 := by
  rcases h with ⟨-, rfl⟩ | ⟨-, entries, -, hp⟩
  · exact nofun
  · clear * - hp
    induction hp with
    | nil => exact nofun
    | cons hm _ ih => exact List.forall_mem_cons.2 ⟨⟨hm.1.2, hm.2.2⟩, ih⟩

theorem Clean.adopt {s : Subscription} (h : s.Clean) {d : Declaration} {t : Terms} (hd : d.Says t) (hf : t.Fits s) :
    (s.adopt t).Sound := by
  have hm := encodable_of_givesMetadata hd.metadata
  have hx := hd.delivery
  have hfx := hf.delivery
  have hk := Registry.adopt_key s t
  refine { pubsub := hk ▸ h.pubsub, topic := hk ▸ h.topic, rules := ?_, priorities := ?_, default := ?_,
           deadLetter := ?_, names := ?_, metadata := ?_, delivered := ?_ }
  · intro r hr
    rcases mem_deliver_rules.1 hr with hr | he
    · exact h.rules r hr
    · rw [he] at hx
      exact sound_of_delivers hx
  · exact nodup_deliver_rules h.priorities hfx
  · intro path hp
    simp only [Subscription.adopt] at hp
    cases he : t.delivery with
    | rule r =>
      rw [he] at hp
      exact h.default path hp
    | default q =>
      rw [he] at hp hx
      cases hp
      exact hx.2.2
  · intro topic ht
    have hn := hd.deadLetter
    simp only [Subscription.adopt] at ht
    cases he : t.deadLetter? with
    | none =>
      rw [he] at ht
      exact h.deadLetter topic ht
    | some q =>
      rw [he] at ht hn
      cases ht
      exact hn.2.2
  · exact Assoc.nodup_keys_insertAll _ h.names
  · intro m hm'
    rcases Assoc.mem_of_mem_insertAll hm' with hm' | hm'
    · exact hm m hm'
    · exact h.metadata m hm'
  · simp only [Subscription.adopt]
    cases he : t.delivery with
    | default q => exact .inr (Option.some_ne_none q)
    | rule r => exact .inl (List.ne_nil_of_mem (mem_deliver_rules.2 (.inr rfl)))

end Subscription

namespace Registry

/-! ## One call, and a run of them -/

theorem mem_putInto {s x : Subscription} {l : List Subscription} (h : x ∈ putInto s l) : x = s ∨ x ∈ l := by
  induction l with
  | nil => exact .inl (List.mem_singleton.1 h)
  | cons t l ih =>
    rw [putInto] at h
    split at h
    · rcases List.mem_cons.1 h with rfl | h
      · exact .inl rfl
      · exact .inr (List.mem_cons_of_mem t h)
    · rcases List.mem_cons.1 h with rfl | h
      · exact .inr List.mem_cons_self
      · exact (ih h).imp_right (List.mem_cons_of_mem t)

theorem Sound.put {r : Registry} (h : r.Sound) {s : Subscription} (hs : s.Sound) : (r.put s).Sound := by
  refine ⟨?_, fun x hx => ?_⟩
  · rw [keys_put]
    exact nodup_addNew h.keys s.key
  · rcases mem_putInto hx with rfl | hx
    · exact hs
    · exact h.subscriptions x hx

theorem Sound.clean_standing {r : Registry} (h : r.Sound) {d : Declaration} {t : Terms} (hd : d.Says t) :
    (r.standing t.key).Clean := by
  unfold standing
  cases hf : r.find? t.key with
  | none => exact Subscription.clean_of_says hd
  | some s => exact (h.subscriptions s (List.mem_of_find?_eq_some hf)).toClean

/-- Priorities and names are distinct for every topic, declared or not. -/
theorem Sound.nodup_standing {r : Registry} (h : r.Sound) (key : TopicKey) :
    ((r.standing key).rules.map RoutingRule.priority).Nodup ∧ (Assoc.keys (r.standing key).metadata).Nodup := by
  unfold standing
  cases hf : r.find? key with
  | none => exact ⟨List.nodup_nil, List.nodup_nil⟩
  | some s =>
    have hs := h.subscriptions s (List.mem_of_find?_eq_some hf)
    exact ⟨hs.priorities, hs.names⟩

theorem sound_empty : empty.Sound := ⟨List.nodup_nil, nofun⟩

/-- Soundness survives every call, accepted or refused. -/
theorem Sound.call {r : Registry} (h : r.Sound) (c : Call) : (r.call c).2.Sound := by
  cases c with
  | clear => exact sound_empty
  | register d =>
    simp only [Registry.call]
    cases hr : r.register d with
    | error e => exact h
    | ok p =>
      -- The topic adopts terms that fit, and what it had before is clean even if it had nothing.
      obtain ⟨t, hd, hk, hf, hp⟩ := register_eq_ok_iff.1 hr
      rw [hk] at hf hp
      simp only [hp]
      exact h.put ((h.clean_standing hd).adopt hd hf)

theorem Sound.callAll {r : Registry} (h : r.Sound) (cs : List Call) : (r.callAll cs).Sound := by
  induction cs generalizing r with
  | nil => exact h
  | cons c cs ih => exact ih (h.call c)

end Registry

end PubSub

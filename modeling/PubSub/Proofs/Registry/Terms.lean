import PubSub.Proofs.Assoc
import PubSub.Proofs.Outcome
import PubSub.Registry.Call
/-!
# What a declaration does

`register_eq_ok_iff` sums up the checks and the changes of a declaration: read by itself it comes to some terms, the
terms fit what is declared for the topic already, and the topic adopts them. The theorems about registries rest on it
and look at the operations no further.
-/
namespace PubSub

/-! ## Checks of values -/

/-- A text that UTF-8 carries. -/
def Value.IsText (v : Value) (t : Text) : Prop := v = .text t ∧ Text.Encodable t

/-- A text that UTF-8 carries and that is not blank. -/
def Value.IsName (v : Value) (t : Text) : Prop := v.IsText t ∧ ¬ Text.Blank t

theorem requireText_eq_ok_iff {field : Text} {v : Value} {t : Text} : requireText field v = .ok t ↔ v.IsText t := by
  constructor
  · intro h
    unfold requireText at h
    split at h
    · split at h
      · next he =>
        cases h
        exact ⟨rfl, he⟩
      · cases h
    · cases h
  · rintro ⟨rfl, he⟩
    exact if_pos he

theorem requireName_eq_ok_iff {field : Text} {v : Value} {t : Text} : requireName field v = .ok t ↔ v.IsName t := by
  constructor
  · intro h
    unfold requireName at h
    split at h
    · split at h
      · cases h
      · next hb =>
        have ht := requireText_eq_ok_iff.1 h
        cases ht.1
        exact ⟨ht, hb⟩
    · cases h
  · rintro ⟨⟨rfl, he⟩, hb⟩
    rw [requireName, if_neg hb]
    exact if_pos he

theorem TopicKey.ofValues_eq_ok_iff {pubsub topic : Value} {k : TopicKey} :
    TopicKey.ofValues pubsub topic = .ok k ↔ pubsub.IsName k.pubsub ∧ topic.IsName k.topic := by
  simp only [ofValues, bind_eq_ok_iff, requireName_eq_ok_iff, pure_eq_ok_iff]
  constructor
  · rintro ⟨_, hp, _, ht, rfl⟩
    exact ⟨hp, ht⟩
  · rintro ⟨hp, ht⟩
    exact ⟨_, hp, _, ht, rfl⟩

theorem RoutingRule.ofValues_eq_ok_iff {path condition priority : Value} {r : RoutingRule} :
    RoutingRule.ofValues path condition priority = .ok r ↔
      path.IsText r.path ∧ condition.IsText r.condition ∧ priority = .int r.priority := by
  simp only [ofValues, bind_eq_ok_iff, requireText_eq_ok_iff]
  constructor
  · rintro ⟨p, hp, c, hc, h⟩
    split at h
    · cases h
      exact ⟨hp, hc, rfl⟩
    · cases h
  · rintro ⟨hp, hc, rfl⟩
    exact ⟨_, hp, _, hc, rfl⟩

theorem checkPair_eq_ok_iff {key : TopicKey} {p : Value × Value} {m : Text × Text} :
    Subscription.checkPair key p = .ok m ↔ p.1.IsText m.1 ∧ p.2.IsText m.2 := by
  obtain ⟨name, value⟩ := p
  constructor
  · intro h
    unfold Subscription.checkPair at h
    split at h
    · simp only [bind_eq_ok_iff, requireText_eq_ok_iff, pure_eq_ok_iff] at h
      obtain ⟨_, hn, _, hv, rfl⟩ := h
      cases ‹_ = _›
      exact ⟨hn, hv⟩
    · cases h
  · rintro ⟨⟨h₁, hn⟩, h₂, hv⟩
    cases h₁
    cases h₂
    simp only [Subscription.checkPair, bind_eq_ok_iff, requireText_eq_ok_iff, pure_eq_ok_iff]
    exact ⟨_, ⟨rfl, hn⟩, _, ⟨rfl, hv⟩, rfl⟩

theorem BulkSettings.ofValue?_eq_some_iff {v : Value} {b : BulkSettings} : ofValue? v = some b ↔ v = b.toValue := by
  constructor
  · intro h
    unfold ofValue? at h
    split at h
    · cases h
      rfl
    · cases h
  · rintro rfl
    rfl

/-! ## Terms -/

/-- Where events go: by default, or those that a rule is about. -/
inductive Delivery
  | default (path : Text)
  | rule (r : RoutingRule)
  deriving DecidableEq

/-- What a declaration comes to when it is read by itself. -/
structure Terms where
  key : TopicKey
  delivery : Delivery
  deadLetter? : Option Text
  metadata : List (Text × Text)
  bulk? : Option BulkSettings

namespace Declaration

/-- The declaration is about this delivery. -/
def Delivers (d : Declaration) : Delivery → Prop
  | .default path => ¬ d.condition.IsGiven ∧ d.route.IsText path
  | .rule r => d.condition.IsGiven ∧ d.route.IsText r.path ∧ d.condition.IsText r.condition ∧
      d.priority = .int r.priority

/-- The declaration names this dead letter topic, or none. -/
def NamesDeadLetter (d : Declaration) : Option Text → Prop
  | none => ¬ d.deadLetter.IsGiven
  | some topic => d.deadLetter.IsGiven ∧ d.deadLetter.IsText topic

/-- The declaration gives these pairs of metadata. -/
def GivesMetadata (d : Declaration) (metadata : List (Text × Text)) : Prop :=
  (¬ d.metadata.IsGiven ∧ metadata = []) ∨
    (d.metadata.IsGiven ∧ ∃ entries, d.metadata.entries? = some entries ∧
      List.Forall₂ (fun p m => p.1.IsText m.1 ∧ p.2.IsText m.2) entries metadata)

/-- The declaration sets these bulk settings, or none. -/
def SetsBulk (d : Declaration) : Option BulkSettings → Prop
  | none => d.bulk = .none
  | some b => d.bulk = b.toValue

/-- The declaration, read by itself, comes to these terms. -/
structure Says (d : Declaration) (t : Terms) : Prop where
  pubsub : d.pubsub.IsName t.key.pubsub
  topic : d.topic.IsName t.key.topic
  delivery : d.Delivers t.delivery
  deadLetter : d.NamesDeadLetter t.deadLetter?
  metadata : d.GivesMetadata t.metadata
  bulk : d.SetsBulk t.bulk?

end Declaration

/-- Nothing that is declared stands against the delivery. -/
def Delivery.Fits (s : Subscription) : Delivery → Prop
  | .default path => ∀ current ∈ s.defaultPath?, current = path
  | .rule r => r ∈ s.rules ∨ ∀ x ∈ s.rules, x.priority ≠ r.priority

/-- Nothing that is declared stands against the terms. -/
structure Terms.Fits (t : Terms) (s : Subscription) : Prop where
  delivery : t.delivery.Fits s
  deadLetter : ∀ topic ∈ t.deadLetter?, ∀ current ∈ s.deadLetter?, current = topic

namespace Subscription

/-- The subscription with a delivery. -/
def deliver (s : Subscription) : Delivery → Subscription
  | .default path => { s with defaultPath? := some path }
  | .rule r => { s with rules := if r ∈ s.rules then s.rules else s.rules ++ [r] }

/-- The subscription with the terms of one more declaration. -/
def adopt (s : Subscription) (t : Terms) : Subscription :=
  { s.deliver t.delivery with
    deadLetter? := t.deadLetter?.or s.deadLetter?
    metadata := Assoc.insertAll t.metadata s.metadata
    bulk? := t.bulk?.or s.bulk? }

/-! ## What the operations do -/

theorem addRule_eq_ok_iff {s s' : Subscription} {r : RoutingRule} :
    s.addRule r = .ok s' ↔ (∀ x ∈ s.rules, x.priority ≠ r.priority) ∧ s' = { s with rules := s.rules ++ [r] } := by
  have hn : s.ruleAt? r.priority = none ↔ ∀ x ∈ s.rules, x.priority ≠ r.priority := by
    simp [ruleAt?, List.find?_eq_none]
  unfold addRule
  rw [← hn]
  cases s.ruleAt? r.priority with
  | none =>
    constructor
    · intro h
      exact ⟨rfl, (Except.ok.inj h).symm⟩
    · rintro ⟨-, rfl⟩
      rfl
  | some x => exact ⟨nofun, nofun⟩

theorem declareRule_eq_ok_iff {s s' : Subscription} {r : RoutingRule} :
    s.declareRule r = .ok s' ↔ (Delivery.rule r).Fits s ∧ s' = s.deliver (.rule r) := by
  unfold declareRule deliver Delivery.Fits
  by_cases hr : r ∈ s.rules
  · simp only [hr, if_true, true_or, true_and]
    constructor
    · intro h
      exact (Except.ok.inj h).symm
    · rintro rfl
      rfl
  · simp only [hr, if_false, false_or]
    exact addRule_eq_ok_iff

theorem withSetting_of_setting? {s : Subscription} {x : Setting} {t : Text} (h : s.setting? x = some t) :
    s.withSetting x t = s := by
  obtain ⟨key, rules, defaultPath?, deadLetter?, metadata, bulk?⟩ := s
  cases x <;> cases h <;> rfl

theorem give_eq_ok_iff {s s' : Subscription} {x : Setting} {v : Value} :
    s.give x v = .ok s' ↔ ∃ t, v.IsText t ∧ (∀ current ∈ s.setting? x, current = t) ∧ s' = s.withSetting x t := by
  simp only [give, bind_eq_ok_iff, requireText_eq_ok_iff]
  refine exists_congr fun t => and_congr_right fun _ => ?_
  cases hx : s.setting? x with
  | none => simp [pure_eq_ok_iff]
  | some current =>
    by_cases h : current = t
    · subst h
      simp [withSetting_of_setting? hx, pure_eq_ok_iff]
    · simp [h, throw, throwThe, MonadExceptOf.throw]

theorem mergeMetadata_eq_ok_iff {s s' : Subscription} {v : Value} :
    s.mergeMetadata v = .ok s' ↔
      ∃ entries, v.entries? = some entries ∧
        ∃ pairs, List.Forall₂ (fun p m => p.1.IsText m.1 ∧ p.2.IsText m.2) entries pairs ∧
          s' = { s with metadata := Assoc.insertAll pairs s.metadata } := by
  unfold mergeMetadata
  cases v.entries? with
  | none => simp [throw, throwThe, MonadExceptOf.throw]
  | some entries =>
    simp only [bind_eq_ok_iff, mapM_eq_ok_iff, checkPair_eq_ok_iff, pure_eq_ok_iff, Option.some.injEq, exists_eq_left']

theorem setBulk_eq_ok_iff {s s' : Subscription} {v : Value} :
    s.setBulk v = .ok s' ↔ ∃ b : BulkSettings, v = b.toValue ∧ s' = { s with bulk? := some b } := by
  simp only [← BulkSettings.ofValue?_eq_some_iff]
  unfold setBulk
  cases BulkSettings.ofValue? v with
  | none => simp
  | some b => simp [eq_comm]

theorem declareRoute_eq_ok_iff {s s' : Subscription} {d : Declaration} :
    s.declareRoute d = .ok s' ↔ ∃ x, d.Delivers x ∧ x.Fits s ∧ s' = s.deliver x := by
  unfold declareRoute
  by_cases hc : d.condition.IsGiven
  · rw [if_pos hc]
    simp only [bind_eq_ok_iff, RoutingRule.ofValues_eq_ok_iff, declareRule_eq_ok_iff]
    constructor
    · rintro ⟨r, hr, hf, hs⟩
      exact ⟨.rule r, ⟨hc, hr⟩, hf, hs⟩
    · rintro ⟨_ | r, hd, hf, hs⟩
      · exact absurd hc hd.1
      · exact ⟨r, hd.2, hf, hs⟩
  · rw [if_neg hc, setDefaultPath, give_eq_ok_iff]
    constructor
    · rintro ⟨path, hp, hf, hs⟩
      exact ⟨.default path, ⟨hc, hp⟩, hf, hs⟩
    · rintro ⟨path | _, hd, hf, hs⟩
      · exact ⟨path, hd.2, hf, hs⟩
      · exact absurd hd.1 hc

section Parts
variable {s s' : Subscription} {d : Declaration}

theorem declareDeadLetter_eq_ok_iff :
    (if d.deadLetter.IsGiven then s.setDeadLetter d.deadLetter else pure s) = .ok s' ↔
      ∃ topic?, d.NamesDeadLetter topic? ∧ (∀ topic ∈ topic?, ∀ current ∈ s.deadLetter?, current = topic) ∧
        s' = { s with deadLetter? := topic?.or s.deadLetter? } := by
  by_cases hg : d.deadLetter.IsGiven
  · rw [if_pos hg, setDeadLetter, give_eq_ok_iff]
    constructor
    · rintro ⟨topic, ht, hf, hs⟩
      refine ⟨some topic, ⟨hg, ht⟩, ?_, hs⟩
      rintro _ ⟨⟩
      exact hf
    · rintro ⟨_ | topic, hd, hf, hs⟩
      · exact absurd hg hd
      · exact ⟨topic, hd.2, hf topic rfl, hs⟩
  · rw [if_neg hg, pure_eq_ok_iff]
    constructor
    · rintro hs
      exact ⟨none, hg, nofun, hs⟩
    · rintro ⟨_ | topic, hd, -, hs⟩
      · exact hs
      · exact absurd hd.1 hg

theorem declareMetadata_eq_ok_iff :
    (if d.metadata.IsGiven then s.mergeMetadata d.metadata else pure s) = .ok s' ↔
      ∃ metadata, d.GivesMetadata metadata ∧ s' = { s with metadata := Assoc.insertAll metadata s.metadata } := by
  by_cases hg : d.metadata.IsGiven
  · rw [if_pos hg, mergeMetadata_eq_ok_iff]
    constructor
    · rintro ⟨entries, he, pairs, hp, hs⟩
      exact ⟨pairs, .inr ⟨hg, entries, he, hp⟩, hs⟩
    · rintro ⟨pairs, ⟨hn, -⟩ | ⟨-, entries, he, hp⟩, hs⟩
      · exact absurd hg hn
      · exact ⟨entries, he, pairs, hp, hs⟩
  · rw [if_neg hg, pure_eq_ok_iff]
    constructor
    · rintro hs
      exact ⟨[], .inl ⟨hg, rfl⟩, hs⟩
    · rintro ⟨pairs, ⟨-, rfl⟩ | ⟨hg', -⟩, hs⟩
      · exact hs
      · exact absurd hg' hg

theorem declareBulk_eq_ok_iff :
    (match d.bulk with
      | .none => pure s
      | bulk => s.setBulk bulk) = .ok s' ↔
      ∃ b?, d.SetsBulk b? ∧ s' = { s with bulk? := b?.or s.bulk? } := by
  by_cases hb : d.bulk = .none
  · rw [hb]
    constructor
    · intro h
      exact ⟨none, hb, pure_eq_ok_iff.1 h⟩
    · rintro ⟨_ | b, hd, hs⟩
      · exact pure_eq_ok_iff.2 hs
      · cases hb.symm.trans hd
  · have hm : (match d.bulk with
        | .none => pure s
        | bulk => s.setBulk bulk) = s.setBulk d.bulk := by
      split
      · next h => exact absurd h hb
      · rfl
    rw [hm, setBulk_eq_ok_iff]
    constructor
    · rintro ⟨b, hd, hs⟩
      exact ⟨some b, hd, hs⟩
    · rintro ⟨_ | b, hd, hs⟩
      · exact absurd hd hb
      · exact ⟨b, hd, hs⟩

end Parts

theorem declare_eq (s : Subscription) (d : Declaration) :
    s.declare d = s.declareRoute d >>= fun s =>
      (if d.deadLetter.IsGiven then s.setDeadLetter d.deadLetter else pure s) >>= fun s =>
        (if d.metadata.IsGiven then s.mergeMetadata d.metadata else pure s) >>= fun s =>
          match d.bulk with
          | .none => pure s
          | bulk => s.setBulk bulk := by
  unfold declare
  refine congrArg (s.declareRoute d >>= ·) (funext fun s => ?_)
  -- Each side branches where it binds, so the two agree only once both questions are settled.
  cases Value.IsGiven.decidable d.deadLetter <;> cases Value.IsGiven.decidable d.metadata <;> rfl

/-- A declaration is taken in if it comes to terms that fit, and then the terms are adopted. -/
theorem declare_eq_ok_iff {s s' : Subscription} {d : Declaration} :
    s.declare d = .ok s' ↔ ∃ t : Terms, t.key = s.key ∧ d.Delivers t.delivery ∧ d.NamesDeadLetter t.deadLetter? ∧
      d.GivesMetadata t.metadata ∧ d.SetsBulk t.bulk? ∧ t.Fits s ∧ s' = s.adopt t := by
  -- A delivery leaves alone what the other parts of the declaration look at.
  have hx : ∀ x : Delivery, (s.deliver x).key = s.key ∧ (s.deliver x).deadLetter? = s.deadLetter? ∧
      (s.deliver x).metadata = s.metadata ∧ (s.deliver x).bulk? = s.bulk? := by
    rintro (_ | _) <;> exact ⟨rfl, rfl, rfl, rfl⟩
  simp only [declare_eq, bind_eq_ok_iff, declareRoute_eq_ok_iff, declareDeadLetter_eq_ok_iff, declareMetadata_eq_ok_iff]
  constructor
  · rintro ⟨_, ⟨x, hd, hf, rfl⟩, _, ⟨topic?, hn, hc, rfl⟩, _, ⟨metadata, hm, rfl⟩, h⟩
    obtain ⟨b?, hb, rfl⟩ := declareBulk_eq_ok_iff.1 h
    obtain ⟨h₁, h₂, h₃, h₄⟩ := hx x
    rw [h₂] at hc
    refine ⟨⟨s.key, x, topic?, metadata, b?⟩, rfl, hd, hn, hm, hb, ⟨hf, hc⟩, ?_⟩
    simp only [adopt, h₂, h₃, h₄]
  · rintro ⟨⟨k, x, topic?, metadata, b?⟩, -, hd, hn, hm, hb, ⟨hf, hc⟩, rfl⟩
    obtain ⟨h₁, h₂, h₃, h₄⟩ := hx x
    refine ⟨_, ⟨x, hd, hf, rfl⟩, _, ⟨topic?, hn, by rwa [h₂], rfl⟩, _, ⟨metadata, hm, rfl⟩,
      declareBulk_eq_ok_iff.2 ⟨b?, hb, ?_⟩⟩
    simp only [adopt, h₂, h₃, h₄]

end Subscription

namespace Registry

/-- What is declared for a topic, at first nothing. -/
def standing (r : Registry) (key : TopicKey) : Subscription := (r.find? key).getD { key }

theorem standing_key (r : Registry) (key : TopicKey) : (r.standing key).key = key := by
  unfold standing find?
  cases h : r.subscriptions.find? fun s => s.key = key with
  | none => rfl
  | some s => simpa using List.find?_some h

/-- A declaration is accepted if it comes to terms that fit what is declared for its topic, and then the topic adopts
the terms. -/
theorem register_eq_ok_iff {r r' : Registry} {d : Declaration} {key : TopicKey} :
    r.register d = .ok (key, r') ↔
      ∃ t, d.Says t ∧ key = t.key ∧ t.Fits (r.standing key) ∧ r' = r.put ((r.standing key).adopt t) := by
  unfold register
  simp only [bind_eq_ok_iff, TopicKey.ofValues_eq_ok_iff, pure_eq_ok_iff]
  constructor
  · rintro ⟨k, hk, s, hs, he⟩
    obtain ⟨t, ht, hd, hn, hm, hb, hf, rfl⟩ := Subscription.declare_eq_ok_iff.1 hs
    obtain ⟨rfl, rfl⟩ := Prod.mk.inj he
    have htk : t.key = key := ht.trans (r.standing_key key)
    exact ⟨t, ⟨htk ▸ hk.1, htk ▸ hk.2, hd, hn, hm, hb⟩, htk.symm, hf, rfl⟩
  · rintro ⟨t, ht, rfl, hf, rfl⟩
    exact ⟨t.key, ⟨ht.pubsub, ht.topic⟩, _, Subscription.declare_eq_ok_iff.2
      ⟨t, (r.standing_key t.key).symm, ht.delivery, ht.deadLetter, ht.metadata, ht.bulk, hf, rfl⟩, rfl⟩

end Registry

end PubSub

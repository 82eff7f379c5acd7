import PubSub.Proofs.Registry.Log
/-!
# Which declarations are accepted

A well-formed declaration is accepted exactly if it is compatible with each declaration of its topic that was accepted
since the registry was last cleared (`register_ok_iff_compatible`). The comparison is pairwise and on what callers hand
over; what is declared for the topic, where the registry looks, does not come up.
-/
namespace PubSub

namespace Declaration

/-- Names that are not blank, a route, and in every other place either nothing or something of the right kind. -/
structure WellFormed (d : Declaration) : Prop where
  pubsub : ∃ t, d.pubsub.IsName t
  topic : ∃ t, d.topic.IsName t
  route : ∃ t, d.route.IsText t
  condition : d.condition = .none ∨ ∃ t, d.condition.IsText t
  priority : ∃ i, d.priority = .int i
  deadLetter : d.deadLetter = .none ∨ ∃ t, d.deadLetter.IsText t
  metadata : d.metadata = .none ∨
    ∃ entries, d.metadata.entries? = some entries ∧ ∀ p ∈ entries, (∃ t, p.1.IsText t) ∧ ∃ t, p.2.IsText t
  bulk : d.bulk = .none ∨ ∃ b : BulkSettings, d.bulk = b.toValue

/-- Two declarations of one topic do not contradict each other. -/
structure Compatible (a d : Declaration) : Prop where
  defaults : ¬ a.condition.IsGiven → ¬ d.condition.IsGiven → a.route = d.route
  rules : a.condition.IsGiven → d.condition.IsGiven → a.priority = d.priority →
    a.route = d.route ∧ a.condition = d.condition
  deadLetters : a.deadLetter.IsGiven → d.deadLetter.IsGiven → a.deadLetter = d.deadLetter

/-! ## Well-formed declarations come to terms -/

theorem exists_delivers {d : Declaration} (h : d.WellFormed) : ∃ x, d.Delivers x := by
  obtain ⟨path, hp⟩ := h.route
  obtain ⟨i, hi⟩ := h.priority
  by_cases hg : d.condition.IsGiven
  · rcases h.condition with hc | ⟨c, hc⟩
    · rw [hc] at hg
      exact hg.elim
    · exact ⟨.rule ⟨path, c, i⟩, hg, hp, hc, hi⟩
  · exact ⟨.default path, hg, hp⟩

theorem exists_namesDeadLetter {d : Declaration} (h : d.WellFormed) : ∃ topic?, d.NamesDeadLetter topic? := by
  by_cases hg : d.deadLetter.IsGiven
  · rcases h.deadLetter with hn | ⟨t, ht⟩
    · rw [hn] at hg
      exact hg.elim
    · exact ⟨some t, hg, ht⟩
  · exact ⟨none, hg⟩

theorem exists_pairs {entries : List (Value × Value)}
    (h : ∀ p ∈ entries, (∃ t, p.1.IsText t) ∧ ∃ t, p.2.IsText t) :
    ∃ pairs : List (Text × Text), List.Forall₂ (fun p m => p.1.IsText m.1 ∧ p.2.IsText m.2) entries pairs := by
  induction entries with
  | nil => exact ⟨[], .nil⟩
  | cons p entries ih =>
    obtain ⟨⟨⟨name, hn⟩, value, hv⟩, hs⟩ := List.forall_mem_cons.1 h
    obtain ⟨pairs, hp⟩ := ih hs
    exact ⟨(name, value) :: pairs, .cons ⟨hn, hv⟩ hp⟩

theorem exists_givesMetadata {d : Declaration} (h : d.WellFormed) : ∃ metadata, d.GivesMetadata metadata := by
  by_cases hg : d.metadata.IsGiven
  · rcases h.metadata with hn | ⟨entries, he, hp⟩
    · rw [hn] at hg
      exact hg.elim
    · obtain ⟨pairs, hp⟩ := exists_pairs hp
      exact ⟨pairs, .inr ⟨hg, entries, he, hp⟩⟩
  · exact ⟨[], .inl ⟨hg, rfl⟩⟩

theorem WellFormed.exists_says {d : Declaration} (h : d.WellFormed) : ∃ t, d.Says t := by
  obtain ⟨pubsub, hpubsub⟩ := h.pubsub
  obtain ⟨topic, htopic⟩ := h.topic
  obtain ⟨x, hx⟩ := exists_delivers h
  obtain ⟨topic?, hn⟩ := exists_namesDeadLetter h
  obtain ⟨metadata, hm⟩ := exists_givesMetadata h
  rcases h.bulk with hb | ⟨b, hb⟩
  · exact ⟨⟨⟨pubsub, topic⟩, x, topic?, metadata, none⟩, hpubsub, htopic, hx, hn, hm, hb⟩
  · exact ⟨⟨⟨pubsub, topic⟩, x, topic?, metadata, some b⟩, hpubsub, htopic, hx, hn, hm, hb⟩

/-! ## Declarations agree as their terms do -/

theorem text_eq_iff {v w : Value} {s t : Text} (hv : v.IsText s) (hw : w.IsText t) : v = w ↔ s = t := by
  rw [hv.1, hw.1, Value.text.injEq]

theorem key_eq_iff {a d : Declaration} {u t : Terms} (ha : a.Says u) (hd : d.Says t) :
    a.pubsub = d.pubsub ∧ a.topic = d.topic ↔ u.key = t.key := by
  rw [text_eq_iff ha.pubsub.1 hd.pubsub.1, text_eq_iff ha.topic.1 hd.topic.1]
  constructor
  · rintro ⟨hp, ht⟩
    exact congrArg₂ TopicKey.mk hp ht
  · intro h
    rw [h]
    exact ⟨rfl, rfl⟩

theorem delivery_agrees_iff {a d : Declaration} {x y : Delivery} (ha : a.Delivers x) (hd : d.Delivers y) :
    x.Agrees y ↔ (¬ a.condition.IsGiven → ¬ d.condition.IsGiven → a.route = d.route) ∧
      (a.condition.IsGiven → d.condition.IsGiven → a.priority = d.priority →
        a.route = d.route ∧ a.condition = d.condition) := by
  cases x <;> cases y
  case default.default p q =>
    rw [text_eq_iff ha.2 hd.2]
    constructor
    · intro h
      exact ⟨fun _ _ => h, fun hg => absurd hg ha.1⟩
    · intro h
      exact h.1 ha.1 hd.1
  case rule.rule x y =>
    obtain ⟨hga, hra, hca, hpa⟩ := ha
    obtain ⟨hgd, hrd, hcd, hpd⟩ := hd
    rw [text_eq_iff hra hrd, text_eq_iff hca hcd, hpa, hpd, Value.int.injEq]
    constructor
    · intro h
      refine ⟨fun hn => absurd hga hn, fun _ _ hp => ?_⟩
      rw [h hp]
      exact ⟨rfl, rfl⟩
    · intro h hp
      obtain ⟨hr, hc⟩ := h.2 hga hgd hp
      obtain ⟨_, _, _⟩ := x
      cases hr
      cases hc
      cases hp
      rfl
  -- A default path and a rule never meet: the declaration of one has a condition, that of the other has none.
  case default.rule p y =>
    refine ⟨fun _ => ⟨?_, ?_⟩, fun _ => trivial⟩
    · intro _ hn
      exact absurd hd.1 hn
    · intro hg
      exact absurd hg ha.1
  case rule.default x q =>
    refine ⟨fun _ => ⟨?_, ?_⟩, fun _ => trivial⟩
    · intro hn
      exact absurd ha.1 hn
    · intro _ hg
      exact absurd hg hd.1

theorem deadLetter_agrees_iff {a d : Declaration} {p? q? : Option Text} (ha : a.NamesDeadLetter p?)
    (hd : d.NamesDeadLetter q?) :
    (∀ p ∈ p?, ∀ q ∈ q?, p = q) ↔ (a.deadLetter.IsGiven → d.deadLetter.IsGiven → a.deadLetter = d.deadLetter) := by
  cases p? with
  | none => exact ⟨fun _ hg => absurd hg ha, fun _ => nofun⟩
  | some p =>
    cases q? with
    | none => exact ⟨fun _ _ hg => absurd hg hd, fun _ _ _ => nofun⟩
    | some q =>
      rw [text_eq_iff ha.2 hd.2]
      constructor
      · intro h _ _
        exact h p rfl q rfl
      · rintro h _ ⟨⟩ _ ⟨⟩
        exact h ha.1 hd.1

theorem compatible_iff {a d : Declaration} {u t : Terms} (ha : a.Says u) (hd : d.Says t) :
    a.Compatible d ↔ u.Agrees t := by
  constructor
  · rintro ⟨h₁, h₂, h₃⟩
    exact ⟨(delivery_agrees_iff ha.delivery hd.delivery).2 ⟨h₁, h₂⟩,
      (deadLetter_agrees_iff ha.deadLetter hd.deadLetter).2 h₃⟩
  · rintro ⟨h₁, h₂⟩
    obtain ⟨hd₁, hd₂⟩ := (delivery_agrees_iff ha.delivery hd.delivery).1 h₁
    exact ⟨hd₁, hd₂, (deadLetter_agrees_iff ha.deadLetter hd.deadLetter).1 h₂⟩

end Declaration

namespace Registry

/-- The terms of the log that are about a topic agree with some terms if each declaration of the topic is compatible
with the one that comes to them. -/
theorem agrees_iff {log : List Declaration} {ts : List Terms} (hts : List.Forall₂ Declaration.Says log ts)
    {d : Declaration} {t : Terms} (hd : d.Says t) :
    (∀ u ∈ ts.filter fun u => u.key = t.key, u.Agrees t) ↔
      ∀ a ∈ log, a.pubsub = d.pubsub ∧ a.topic = d.topic → a.Compatible d := by
  induction hts with
  | nil => simp
  | cons ha _ ih =>
    rw [List.forall_mem_cons, ← ih, Declaration.key_eq_iff ha hd, Declaration.compatible_iff ha hd, List.filter_cons]
    split
    · next hk => simp [of_decide_eq_true hk]
    · next hk => simp [show ¬ _ = _ from fun h => hk (decide_eq_true h)]

/-- The accepted declarations alone lead to the same registry. -/
theorem callAll_loggedAll {r : Registry} {log : List Declaration} (h : r = empty.callAll (log.map .register))
    (cs : List Call) : r.callAll cs = empty.callAll ((r.loggedAll log cs).map .register) := by
  refine loggedAll_induction (P := fun r log => r = empty.callAll (log.map .register)) rfl ?_ h cs
  intro r r' log d key h hr
  have hc : empty.callAll ((log ++ [d]).map .register) = (r.call (.register d)).2 := by
    rw [h, List.map_append]
    exact List.foldl_append
  rw [hc, call, hr]

end Registry

/-- Acceptance is pairwise compatibility. After any run of calls, a well-formed declaration is accepted exactly if it is
compatible with every declaration of its topic that was accepted since the registry was last cleared. What was refused
has no part in it: the accepted declarations alone lead to the registry that decides. -/
theorem register_ok_iff_compatible (cs : List Call) {d : Declaration} (h : d.WellFormed) :
    ((∃ key r, (Registry.empty.callAll cs).register d = .ok (key, r)) ↔
      ∀ a ∈ Registry.accepted cs, a.pubsub = d.pubsub ∧ a.topic = d.topic → a.Compatible d) ∧
    Registry.empty.callAll cs = Registry.empty.callAll ((Registry.accepted cs).map .register) := by
  have he : Registry.empty = Registry.empty.callAll (([] : List Declaration).map .register) := rfl
  refine ⟨?_, Registry.callAll_loggedAll he cs⟩
  -- Fitting what is declared for the topic is agreeing with all terms in the log that are about it.
  obtain ⟨ts, hts, hh⟩ := Registry.remembers_empty.callAll cs
  obtain ⟨t, ht⟩ := h.exists_says
  constructor
  · rintro ⟨key, r, hr⟩
    obtain ⟨t, ht, rfl, hf, -⟩ := Registry.register_eq_ok_iff.1 hr
    exact (Registry.agrees_iff hts ht).1 ((hh t.key).fits_iff.1 hf)
  · intro ha
    exact ⟨t.key, _, Registry.register_eq_ok_iff.2
      ⟨t, ht, rfl, (hh t.key).fits_iff.2 ((Registry.agrees_iff hts ht).2 ha), rfl⟩⟩

/-- A declaration of the topic `orders`. -/
def ordersTo (route condition : String) (priority : Int) : Declaration :=
  { pubsub := .text (lit "pubsub"), topic := .text (lit "orders"), route := .text (lit route),
    condition := .text (lit condition), priority := .int priority }

/-- Two routes for the topic, of which the second is refused, and a rule. -/
def ordersCalls : List Call :=
  [.register (ordersTo "/orders" "" 0), .register (ordersTo "/other" "" 0), .register (ordersTo "/big" "size > 9" 1)]

theorem register_ok_iff_compatible_orders : (ordersTo "/small" "size < 2" 2).WellFormed ∧
    ((∃ key r, (Registry.empty.callAll ordersCalls).register (ordersTo "/small" "size < 2" 2) = .ok (key, r)) ↔
      ∀ a ∈ Registry.accepted ordersCalls, a.pubsub = .text (lit "pubsub") ∧ a.topic = .text (lit "orders") →
        a.Compatible (ordersTo "/small" "size < 2" 2)) ∧
    Registry.empty.callAll ordersCalls =
      Registry.empty.callAll ((Registry.accepted ordersCalls).map .register) := by
  have h : (ordersTo "/small" "size < 2" 2).WellFormed := by
    refine ⟨⟨_, ⟨rfl, ?_⟩, ?_⟩, ⟨_, ⟨rfl, ?_⟩, ?_⟩, ⟨_, rfl, ?_⟩, .inr ⟨_, rfl, ?_⟩, ⟨_, rfl⟩, .inl rfl,
      .inl rfl, .inl rfl⟩
    all_goals decide
  exact ⟨h, register_ok_iff_compatible ordersCalls h⟩

end PubSub

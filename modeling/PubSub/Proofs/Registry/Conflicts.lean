import PubSub.Proofs.Registry.Atomicity
/-!
# What a conflict says

A declaration is refused for a conflict exactly if the conflict is true: what it calls current is stored for the topic,
what it calls supplied is what the declaration says, and the two differ (`conflict_iff`). Of two conflicts that are both
true the one over the route is reported, and dead letter topics are compared only where the route is accepted.
-/
namespace PubSub

/-! ## What is true of a conflict -/

/-- Both sides of the conflict are as it says. -/
def Conflict.IsTrue (s : Subscription) (d : Declaration) : Conflict → Prop
  | .defaultRoute current supplied =>
    s.defaultPath? = some current ∧ d.Delivers (.default supplied) ∧ current ≠ supplied
  | .priority existing supplied =>
    (existing ∈ s.rules ∧ ∀ x ∈ s.rules, x.priority = existing.priority → x = existing) ∧
      d.Delivers (.rule supplied) ∧ existing.priority = supplied.priority ∧ existing ≠ supplied
  | .deadLetter current supplied =>
    s.deadLetter? = some current ∧ d.NamesDeadLetter (some supplied) ∧ current ≠ supplied

/-- The conflict is about the default path or about a rule. -/
def Conflict.IsOverRoute : Conflict → Prop
  | .defaultRoute .. | .priority .. => True
  | .deadLetter .. => False

/-- The declaration with nothing but its route or rule. -/
def Declaration.routeAlone (d : Declaration) : Declaration :=
  { d with deadLetter := .none, metadata := .none, bulk := .none }

/-! ## Refusals that are no conflicts -/

def ConfigError.IsConflict : ConfigError → Prop
  | .conflict .. => True
  | _ => False

/-- Whatever refuses the computation, it is no conflict. -/
def NoConflict {α : Type} (x : Except ConfigError α) : Prop := FailsOnly (fun e => ¬ e.IsConflict) x

section NoConflict
variable {α β : Type}

theorem NoConflict.bind {x : Except ConfigError α} {f : α → Except ConfigError β} (hx : NoConflict x)
    (hf : ∀ a, NoConflict (f a)) : NoConflict (x >>= f) :=
  failsOnly_bind.2 ⟨hx, fun a _ => hf a⟩

theorem NoConflict.ne {x : Except ConfigError α} (hx : NoConflict x) (key : TopicKey) (c : Conflict) :
    x ≠ .error (.conflict key c) :=
  fun h => hx _ h trivial

/-- A conflict comes from what follows a check. -/
theorem NoConflict.bind_eq_conflict_iff {x : Except ConfigError α} {f : α → Except ConfigError β} (hx : NoConflict x)
    {key : TopicKey} {c : Conflict} :
    x >>= f = .error (.conflict key c) ↔ ∃ a, x = .ok a ∧ f a = .error (.conflict key c) := by
  rw [bind_eq_error_iff]
  exact or_iff_right (hx.ne key c)

theorem noConflict_requireText (field : Text) (v : Value) : NoConflict (requireText field v) := by
  cases v with
  | text t =>
    simp only [requireText]
    split
    · exact failsOnly_ok t
    · exact failsOnly_error.2 id
  | _ => exact failsOnly_error.2 id

theorem noConflict_requireName (field : Text) (v : Value) : NoConflict (requireName field v) := by
  cases v with
  | text t =>
    simp only [requireName]
    split
    · exact failsOnly_error.2 id
    · exact noConflict_requireText field (.text t)
  | _ => exact failsOnly_error.2 id

theorem noConflict_topicKey (pubsub topic : Value) : NoConflict (TopicKey.ofValues pubsub topic) :=
  (noConflict_requireName _ pubsub).bind fun _ => (noConflict_requireName _ topic).bind fun _ => failsOnly_ok _

theorem noConflict_rule (path condition priority : Value) :
    NoConflict (RoutingRule.ofValues path condition priority) := by
  refine (noConflict_requireText _ path).bind fun p => (noConflict_requireText _ condition).bind fun t => ?_
  cases priority with
  | int i => exact failsOnly_ok _
  | _ => exact failsOnly_error.2 id

theorem noConflict_checkPair (key : TopicKey) (p : Value × Value) : NoConflict (Subscription.checkPair key p) := by
  unfold Subscription.checkPair
  split
  · exact (noConflict_requireText _ _).bind fun _ => (noConflict_requireText _ _).bind fun _ => failsOnly_ok _
  · exact failsOnly_error.2 id

theorem noConflict_mergeMetadata (s : Subscription) (metadata : Value) : NoConflict (s.mergeMetadata metadata) := by
  unfold Subscription.mergeMetadata
  cases metadata.entries? with
  | none => exact failsOnly_error.2 id
  | some entries =>
    exact NoConflict.bind (failsOnly_mapM.2 fun _ p _ _ _ => noConflict_checkPair s.key p) fun _ => failsOnly_ok _

theorem noConflict_setBulk (s : Subscription) (settings : Value) : NoConflict (s.setBulk settings) := by
  unfold Subscription.setBulk
  cases BulkSettings.ofValue? settings with
  | none => exact failsOnly_error.2 id
  | some b => exact failsOnly_ok _

end NoConflict

namespace Subscription

variable {s : Subscription} {d : Declaration} {key : TopicKey} {c : Conflict}

/-! ## Parts of a declaration -/

/-- What is given once conflicts with everything else that is given. -/
theorem give_eq_conflict_iff {x : Setting} {v : Value} : s.give x v = .error (.conflict key c) ↔
    key = s.key ∧ ∃ supplied, v.IsText supplied ∧
      ∃ current, s.setting? x = some current ∧ c = x.conflict current supplied ∧ current ≠ supplied := by
  unfold give
  simp only [(noConflict_requireText _ v).bind_eq_conflict_iff, requireText_eq_ok_iff]
  cases s.setting? x with
  | none =>
    refine iff_of_false ?_ (by simp)
    rintro ⟨t, -, h⟩
    cases h
  | some current =>
    constructor
    · rintro ⟨t, hv, h⟩
      dsimp only at h
      split at h
      · cases h
      · next hne =>
        cases h
        exact ⟨rfl, t, hv, current, rfl, rfl, hne⟩
    · rintro ⟨rfl, t, hv, _, ⟨⟩, rfl, hne⟩
      exact ⟨t, hv, if_neg hne⟩

/-- With distinct priorities, the rule at a priority is the one that has it. -/
theorem ruleAt?_eq_some_iff (hp : (s.rules.map RoutingRule.priority).Nodup) {priority : Int} {x : RoutingRule} :
    s.ruleAt? priority = some x ↔ x ∈ s.rules ∧ x.priority = priority := by
  unfold ruleAt?
  constructor
  · intro h
    exact ⟨List.mem_of_find?_eq_some h, by simpa using List.find?_some h⟩
  · rintro ⟨hx, rfl⟩
    cases h : s.rules.find? fun r => r.priority = x.priority with
    | none =>
      rw [List.find?_eq_none] at h
      exact absurd (decide_eq_true rfl) (h x hx)
    | some y =>
      have hy : y.priority = x.priority := by simpa using List.find?_some h
      rw [List.inj_on_of_nodup_map hp (List.mem_of_find?_eq_some h) hx hy]

theorem declareRule_eq_conflict_iff (hp : (s.rules.map RoutingRule.priority).Nodup) {r : RoutingRule} :
    s.declareRule r = .error (.conflict key c) ↔
      key = s.key ∧ ∃ existing, c = .priority existing r ∧ existing ∈ s.rules ∧ existing.priority = r.priority ∧
        existing ≠ r := by
  unfold declareRule addRule
  constructor
  · intro h
    split at h
    · cases h
    · next hr =>
      split at h
      · next existing he =>
        cases h
        obtain ⟨hx, hxp⟩ := (ruleAt?_eq_some_iff hp).1 he
        refine ⟨rfl, existing, rfl, hx, hxp, ?_⟩
        rintro rfl
        exact hr hx
      · cases h
  · rintro ⟨rfl, existing, rfl, hx, hxp, hne⟩
    -- The rule itself is not there: the one that has its priority is another.
    have hr : r ∉ s.rules := fun hr => hne (List.inj_on_of_nodup_map hp hx hr hxp)
    rw [if_neg hr, (ruleAt?_eq_some_iff hp).2 ⟨hx, hxp⟩]

/-- A route or rule is refused for a conflict over it that is true. -/
theorem declareRoute_eq_conflict_iff (hp : (s.rules.map RoutingRule.priority).Nodup) :
    s.declareRoute d = .error (.conflict key c) ↔ key = s.key ∧ c.IsOverRoute ∧ c.IsTrue s d := by
  unfold declareRoute
  by_cases hg : d.condition.IsGiven
  · rw [if_pos hg]
    simp only [(noConflict_rule _ _ _).bind_eq_conflict_iff, RoutingRule.ofValues_eq_ok_iff,
      declareRule_eq_conflict_iff hp]
    constructor
    · rintro ⟨r, hr, rfl, existing, rfl, hx, hxp, hne⟩
      refine ⟨rfl, trivial, ⟨hx, fun y hy hyp => ?_⟩, ⟨hg, hr⟩, hxp, hne⟩
      exact List.inj_on_of_nodup_map hp hy hx hyp
    · rintro ⟨rfl, ho, ht⟩
      cases c with
      | defaultRoute current supplied => exact absurd hg ht.2.1.1
      | deadLetter current supplied => exact ho.elim
      | priority existing supplied =>
        obtain ⟨⟨hx, -⟩, ⟨-, hr⟩, hxp, hne⟩ := ht
        exact ⟨supplied, hr, rfl, existing, rfl, hx, hxp, hne⟩
  · rw [if_neg hg, setDefaultPath, give_eq_conflict_iff]
    constructor
    · rintro ⟨rfl, supplied, hv, current, hc, rfl, hne⟩
      exact ⟨rfl, trivial, hc, ⟨hg, hv⟩, hne⟩
    · rintro ⟨rfl, ho, ht⟩
      cases c with
      | defaultRoute current supplied =>
        obtain ⟨hc, ⟨-, hv⟩, hne⟩ := ht
        exact ⟨rfl, supplied, hv, current, hc, rfl, hne⟩
      | deadLetter current supplied => exact ho.elim
      | priority existing supplied => exact absurd ht.2.1.1 hg

theorem declareDeadLetter_eq_conflict_iff :
    (if d.deadLetter.IsGiven then s.setDeadLetter d.deadLetter else pure s) = .error (.conflict key c) ↔
      key = s.key ∧ ¬ c.IsOverRoute ∧ c.IsTrue s d := by
  by_cases hg : d.deadLetter.IsGiven
  · rw [if_pos hg, setDeadLetter, give_eq_conflict_iff]
    constructor
    · rintro ⟨rfl, supplied, hv, current, hc, rfl, hne⟩
      exact ⟨rfl, id, hc, ⟨hg, hv⟩, hne⟩
    · rintro ⟨rfl, ho, ht⟩
      cases c with
      | deadLetter current supplied =>
        obtain ⟨hc, ⟨-, hv⟩, hne⟩ := ht
        exact ⟨rfl, supplied, hv, current, hc, rfl, hne⟩
      | _ => exact absurd trivial ho
  · rw [if_neg hg]
    constructor
    · intro h
      cases h
    · rintro ⟨-, ho, ht⟩
      cases c with
      | deadLetter current supplied => exact absurd ht.2.1.1 hg
      | _ => exact absurd trivial ho

theorem deliver_key (s : Subscription) (x : Delivery) : (s.deliver x).key = s.key := by
  cases x <;> rfl

/-- A delivery has no part in a conflict over the dead letter topic. -/
theorem isTrue_deliver_iff (hc : ¬ c.IsOverRoute) (x : Delivery) : c.IsTrue (s.deliver x) d ↔ c.IsTrue s d := by
  cases c with
  | deadLetter current supplied => cases x <;> rfl
  | _ => exact absurd trivial hc

/-! ## A declaration -/

/-- A declaration is refused for a conflict that is true; for one over the dead letter topic only if its route or rule
is accepted. -/
theorem declare_eq_conflict_iff (hp : (s.rules.map RoutingRule.priority).Nodup) :
    s.declare d = .error (.conflict key c) ↔
      key = s.key ∧ c.IsTrue s d ∧ (¬ c.IsOverRoute → ∃ s', s.declareRoute d = .ok s') := by
  rw [declare_eq, bind_eq_error_iff, declareRoute_eq_conflict_iff hp]
  constructor
  · rintro (⟨hk, ho, ht⟩ | ⟨s', hs, h⟩)
    · exact ⟨hk, ht, fun hn => absurd ho hn⟩
    · obtain ⟨x, -, -, rfl⟩ := declareRoute_eq_ok_iff.1 hs
      rcases bind_eq_error_iff.1 h with h | ⟨s'', -, h⟩
      · obtain ⟨hk, ho, ht⟩ := declareDeadLetter_eq_conflict_iff.1 h
        rw [deliver_key] at hk
        exact ⟨hk, (isTrue_deliver_iff ho x).1 ht, fun _ => ⟨_, hs⟩⟩
      · -- What follows the dead letter topic, metadata and bulk settings, meets no conflict.
        refine absurd h (NoConflict.ne (NoConflict.bind ?_ fun s => ?_) key c)
        · split
          · exact noConflict_mergeMetadata s'' _
          · exact failsOnly_ok s''
        · cases d.bulk with
          | none => exact failsOnly_ok s
          | _ => exact noConflict_setBulk s _
  · rintro ⟨hk, ht, hroute⟩
    by_cases ho : c.IsOverRoute
    · exact .inl ⟨hk, ho, ht⟩
    · obtain ⟨s', hs⟩ := hroute ho
      obtain ⟨x, -, -, rfl⟩ := declareRoute_eq_ok_iff.1 hs
      rw [← deliver_key s x] at hk
      have hd := declareDeadLetter_eq_conflict_iff.2 ⟨hk, ho, (isTrue_deliver_iff ho x).2 ht⟩
      exact .inr ⟨_, hs, bind_eq_error_iff.2 (.inl hd)⟩

theorem declare_routeAlone : s.declare d.routeAlone = s.declareRoute d := by
  rw [declare_eq]
  change s.declareRoute d >>= _ = _
  cases s.declareRoute d <;> rfl

end Subscription

/-! ## The registry -/

namespace Registry

variable {r : Registry} {d : Declaration} {key : TopicKey} {c : Conflict}

/-- Where nothing is declared, nothing conflicts. -/
theorem isTrue_standing_iff : c.IsTrue (r.standing key) d ↔ ∃ s, r.find? key = some s ∧ c.IsTrue s d := by
  unfold standing
  cases r.find? key with
  | some s => simp
  | none =>
    refine iff_of_false ?_ (by simp)
    cases c <;> simp [Conflict.IsTrue]

theorem register_routeAlone_isOk_iff : (∃ r', r.register d.routeAlone = .ok (key, r')) ↔
    TopicKey.ofValues d.pubsub d.topic = .ok key ∧ ∃ s', (r.standing key).declareRoute d = .ok s' := by
  unfold register
  simp only [bind_eq_ok_iff, pure_eq_ok_iff, ← Subscription.declare_routeAlone]
  constructor
  · rintro ⟨r', k, hk, s', hs, he⟩
    cases he
    exact ⟨hk, s', hs⟩
  · rintro ⟨hk, s', hs⟩
    exact ⟨_, key, hk, s', hs, rfl⟩

/-- A sound registry refuses a declaration for a conflict exactly if the conflict is true of what is stored; for one
over the dead letter topic its route or rule has to be acceptable. -/
theorem register_eq_conflict_iff (hr : r.Sound) : r.register d = .error (.conflict key c) ↔
    TopicKey.ofValues d.pubsub d.topic = .ok key ∧ (∃ s, r.find? key = some s ∧ c.IsTrue s d) ∧
      (¬ c.IsOverRoute → ∃ r', r.register d.routeAlone = .ok (key, r')) := by
  have hdeclare : ∀ k, (r.standing k).declare d = .error (.conflict key c) ↔ key = k ∧ c.IsTrue (r.standing k) d ∧
      (¬ c.IsOverRoute → ∃ s', (r.standing k).declareRoute d = .ok s') := by
    intro k
    rw [Subscription.declare_eq_conflict_iff (hr.nodup_standing k).1, standing_key]
  rw [register_routeAlone_isOk_iff, ← isTrue_standing_iff]
  have hregister : r.register d = .error (.conflict key c) ↔
      ∃ k, TopicKey.ofValues d.pubsub d.topic = .ok k ∧ (r.standing k).declare d = .error (.conflict key c) := by
    unfold register
    rw [(noConflict_topicKey _ _).bind_eq_conflict_iff]
    refine exists_congr fun k => and_congr_right fun _ => ?_
    rw [bind_eq_error_iff]
    exact or_iff_left nofun
  rw [hregister]
  constructor
  · rintro ⟨k, hk, h⟩
    obtain ⟨rfl, ht, hroute⟩ := (hdeclare k).1 h
    exact ⟨hk, ht, fun ho => ⟨hk, hroute ho⟩⟩
  · rintro ⟨hk, ht, hroute⟩
    exact ⟨key, hk, (hdeclare key).2 ⟨rfl, ht, fun ho => (hroute ho).2⟩⟩

end Registry

/-! ## The registry in memory -/

namespace Memory

variable {m : Memory} {r : Registry} {d : Declaration}

theorem Represents.register_isOk_iff (h : m.Represents r) {key : TopicKey} :
    (∃ m', (Memory.register d).on m = (.ok key, m')) ↔ ∃ r', r.register d = .ok (key, r') := by
  rcases h.register d with ⟨k, r', m', hr, hm, -⟩ | ⟨e, m', hr, hm, -⟩
  · simp [hr, hm]
  · simp [hr, hm]

/-- What is raised is what refuses the declaration, if it can be put into words. -/
theorem Represents.register_eq_error_iff (h : m.Represents r) {e : ConfigError} :
    (∃ m', (Memory.register d).on m = (.error (.config e), m')) ↔ r.register d = .error e ∧ e.IsWordable := by
  rcases h.register d with ⟨k, r', m', hr, hm, -⟩ | ⟨e', m', hr, hm, -⟩
  · simp [hr, hm]
  · have hof : Refusal.of e' = .config e ↔ e' = e ∧ e.IsWordable := by
      unfold Refusal.of
      split
      · next hw =>
        rw [Refusal.config.injEq]
        refine ⟨fun he => ⟨he, he ▸ hw⟩, And.left⟩
      · next hw =>
        refine iff_of_false nofun ?_
        rintro ⟨rfl, hw'⟩
        exact hw hw'
    simp [hr, hm, hof]

/-- After any run of calls, a declaration is refused for a conflict exactly if the conflict is about the topic that the
declaration names, can be put into words, and is true: something is stored for the topic, what the conflict calls
current is what is stored, what it calls supplied is what the declaration says, and they differ. A conflict over the
dead letter topic comes up only where the route or rule alone is accepted. -/
theorem conflict_iff (cs : List Call) (d : Declaration) (key : TopicKey) (c : Conflict) :
    (∃ m', (register d).on (empty.callAll cs) = (.error (.config (.conflict key c)), m')) ↔
      TopicKey.ofValues d.pubsub d.topic = .ok key ∧ (ConfigError.conflict key c).IsWordable ∧
      (∃ s, (empty.callAll cs).view.find? key = some s ∧ c.IsTrue s d) ∧
      (¬ c.IsOverRoute → ∃ m', (register d.routeAlone).on (empty.callAll cs) = (.ok key, m')) := by
  have hm : (empty.callAll cs).Represents (Registry.empty.callAll cs) := represents_empty.callAll cs
  have hr : (Registry.empty.callAll cs).Sound := Registry.sound_empty.callAll cs
  rw [hm.register_eq_error_iff, Registry.register_eq_conflict_iff hr, hm.register_isOk_iff, hm.view_eq]
  constructor
  · rintro ⟨⟨hk, ht, hroute⟩, hw⟩
    exact ⟨hk, hw, ht, hroute⟩
  · rintro ⟨hk, hw, ht, hroute⟩
    exact ⟨⟨hk, ht, hroute⟩, hw⟩

end Memory

end PubSub

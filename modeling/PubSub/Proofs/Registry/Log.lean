import Mathlib.Data.List.Nodup
import PubSub.Proofs.Accumulation
import PubSub.Proofs.Registry.Terms
/-!
# What a registry remembers

The log of a run holds the declarations accepted since the registry was last cleared. What is declared for a topic is
what the log says about it: every default path, rule and dead letter topic in the log is there, and nothing else is. So
whether one more declaration fits can be read off the log.
-/
namespace PubSub

/-! ## Terms against each other -/

/-- Two deliveries do not contradict each other. -/
def Delivery.Agrees : Delivery → Delivery → Prop
  | .default p, .default q => p = q
  | .rule x, .rule y => x.priority = y.priority → x = y
  | _, _ => True

/-- The terms of two declarations do not contradict each other. -/
structure Terms.Agrees (u t : Terms) : Prop where
  delivery : u.delivery.Agrees t.delivery
  deadLetter : ∀ p ∈ u.deadLetter?, ∀ q ∈ t.deadLetter?, p = q

namespace Subscription

/-- What is declared is what the terms say, and no two rules have one priority. -/
structure Holds (s : Subscription) (ts : List Terms) : Prop where
  default : ∀ path, s.defaultPath? = some path ↔ ∃ t ∈ ts, t.delivery = .default path
  rules : ∀ r, r ∈ s.rules ↔ ∃ t ∈ ts, t.delivery = .rule r
  deadLetter : ∀ topic, s.deadLetter? = some topic ↔ ∃ t ∈ ts, t.deadLetter? = some topic
  priorities : (s.rules.map RoutingRule.priority).Nodup

theorem holds_nil (key : TopicKey) : ({ key } : Subscription).Holds [] := by
  refine ⟨?_, ?_, ?_, List.nodup_nil⟩ <;> intro x
  all_goals
    constructor
    · exact nofun
    · rintro ⟨t, ht, -⟩
      cases ht

/-- With distinct priorities, a rule fits if it is the one that has its priority. -/
theorem rule_fits_iff {s : Subscription} (hp : (s.rules.map RoutingRule.priority).Nodup) {r : RoutingRule} :
    (Delivery.rule r).Fits s ↔ ∀ x ∈ s.rules, x.priority = r.priority → x = r := by
  constructor
  · rintro (hr | hn) x hx he
    · exact List.inj_on_of_nodup_map hp hx hr he
    · exact absurd he (hn x hx)
  · intro h
    by_cases hr : r ∈ s.rules
    · exact .inl hr
    · refine .inr fun x hx he => hr ?_
      rw [← h x hx he]
      exact hx

/-- Terms fit what is declared if they agree with all terms that made it. -/
theorem Holds.fits_iff {s : Subscription} {ts : List Terms} (h : s.Holds ts) {t : Terms} :
    t.Fits s ↔ ∀ u ∈ ts, u.Agrees t := by
  -- Whatever stands in the way comes from some terms, and whatever terms say stands there.
  constructor
  · intro hf u hu
    refine ⟨?_, fun p hp q hq => ?_⟩
    · have hd := hf.delivery
      cases hx : u.delivery <;> cases hy : t.delivery
      case default.default p q =>
        rw [hy] at hd
        exact hd p ((h.default p).2 ⟨u, hu, hx⟩)
      case rule.rule x y =>
        rw [hy] at hd
        exact (rule_fits_iff h.priorities).1 hd x ((h.rules x).2 ⟨u, hu, hx⟩)
      all_goals trivial
    · exact hf.deadLetter q hq p ((h.deadLetter p).2 ⟨u, hu, hp⟩)
  · intro ha
    refine ⟨?_, fun topic ht current hc => ?_⟩
    · cases hy : t.delivery with
      | default q =>
        intro p hp
        obtain ⟨u, hu, hx⟩ := (h.default p).1 hp
        have hd := (ha u hu).delivery
        rw [hx, hy] at hd
        exact hd
      | rule y =>
        refine (rule_fits_iff h.priorities).2 fun x hx => ?_
        obtain ⟨u, hu, hx⟩ := (h.rules x).1 hx
        have hd := (ha u hu).delivery
        rw [hx, hy] at hd
        exact hd
    · obtain ⟨u, hu, hx⟩ := (h.deadLetter current).1 hc
      exact (ha u hu).deadLetter current hx topic ht

theorem mem_deliver_rules {s : Subscription} {x : Delivery} {r : RoutingRule} :
    r ∈ (s.deliver x).rules ↔ r ∈ s.rules ∨ x = .rule r := by
  cases x with
  | default p => simp [deliver]
  | rule y =>
    by_cases hy : y ∈ s.rules
    · simp only [deliver, hy, if_true]
      refine ⟨.inl, ?_⟩
      rintro (hr | he)
      · exact hr
      · cases he
        exact hy
    · simp [deliver, hy, eq_comm]

theorem nodup_deliver_rules {s : Subscription} {x : Delivery} (hp : (s.rules.map RoutingRule.priority).Nodup)
    (hf : x.Fits s) : ((s.deliver x).rules.map RoutingRule.priority).Nodup := by
  cases x with
  | default p => exact hp
  | rule r =>
    by_cases hr : r ∈ s.rules
    · simpa only [deliver, hr, if_true] using hp
    · simp only [deliver, hr, if_false, List.map_append, List.map_cons, List.map_nil]
      refine List.nodup_append.2 ⟨hp, List.nodup_singleton _, ?_⟩
      intro i hi j hj he
      obtain ⟨x, hx, rfl⟩ := List.mem_map.1 hi
      rw [List.mem_singleton.1 hj] at he
      exact (hf.resolve_left hr) x hx he

theorem exists_mem_snoc {ts : List Terms} {t : Terms} {p : Terms → Prop} :
    (∃ u ∈ ts ++ [t], p u) ↔ (∃ u ∈ ts, p u) ∨ p t := by
  simp only [List.mem_append, List.mem_singleton, or_and_right, exists_or, exists_eq_left]

/-- Terms that fit are added to what is declared, and nothing is lost. -/
theorem Holds.adopt {s : Subscription} {ts : List Terms} (h : s.Holds ts) {t : Terms} (hf : t.Fits s) :
    (s.adopt t).Holds (ts ++ [t]) := by
  obtain ⟨hd, hl⟩ := hf
  refine ⟨?_, ?_, ?_, nodup_deliver_rules h.priorities hd⟩
  · intro path
    rw [exists_mem_snoc, ← h.default]
    cases hx : t.delivery with
    | rule r => simp [Subscription.adopt, deliver, hx]
    | default p =>
      rw [hx] at hd
      simp only [Subscription.adopt, deliver, hx, Option.some.injEq, Delivery.default.injEq]
      refine ⟨.inr, ?_⟩
      -- A path that was there before is the same one, since the delivery fits.
      rintro (hs | he)
      · exact (hd path hs).symm
      · exact he
  · intro r
    rw [exists_mem_snoc, ← h.rules]
    exact mem_deliver_rules
  · intro topic
    rw [exists_mem_snoc, ← h.deadLetter]
    cases ht : t.deadLetter? with
    | none => simp [Subscription.adopt, ht]
    | some q =>
      simp only [Subscription.adopt, ht, Option.some_or, Option.some.injEq]
      refine ⟨.inr, ?_⟩
      rintro (hs | he)
      · exact (hl q ht topic hs).symm
      · exact he

end Subscription

/-! ## Registries -/

namespace Registry

theorem find?_put (r : Registry) (s : Subscription) (key : TopicKey) :
    (r.put s).find? key = if key = s.key then some s else r.find? key := by
  obtain ⟨l⟩ := r
  simp only [find?, put]
  induction l with
  | nil => by_cases h : s.key = key <;> simp [putInto, h, eq_comm]
  | cons t l ih =>
    rw [putInto]
    by_cases ht : t.key = s.key
    · rw [if_pos ht]
      by_cases h : s.key = key
      · simp [h]
      · simp [h, ht, Ne.symm h]
    · rw [if_neg ht]
      by_cases h : t.key = key
      · have hk : key ≠ s.key := h ▸ ht
        simp [h, hk]
      · simp only [List.find?_cons, h, decide_false, ih]

theorem standing_put (r : Registry) (s : Subscription) (key : TopicKey) :
    (r.put s).standing key = if key = s.key then s else r.standing key := by
  unfold standing
  rw [find?_put]
  split <;> rfl

theorem adopt_key (s : Subscription) (t : Terms) : (s.adopt t).key = s.key := by
  unfold Subscription.adopt
  cases t.delivery <;> rfl

theorem map_key_putInto (s : Subscription) (l : List Subscription) :
    (putInto s l).map Subscription.key = addNew (l.map Subscription.key) s.key := by
  unfold addNew
  induction l with
  | nil => rfl
  | cons t l ih =>
    rw [putInto]
    by_cases ht : t.key = s.key
    · simp [ht]
    · rw [if_neg ht, List.map_cons, ih, List.map_cons]
      by_cases hs : s.key ∈ l.map Subscription.key
      · rw [if_pos hs, if_pos (List.mem_cons_of_mem t.key hs)]
      · rw [if_neg hs, if_neg (List.not_mem_cons_of_ne_of_not_mem (Ne.symm ht) hs), List.cons_append]

theorem keys_put (r : Registry) (s : Subscription) : (r.put s).keys = addNew r.keys s.key :=
  map_key_putInto s r.subscriptions

/-- The registry in which the topic of some terms has adopted them. -/
def adopt (r : Registry) (t : Terms) : Registry := r.put ((r.standing t.key).adopt t)

theorem standing_adopt (r : Registry) (t : Terms) (key : TopicKey) :
    (r.adopt t).standing key = if key = t.key then (r.standing key).adopt t else r.standing key := by
  unfold adopt
  rw [standing_put, adopt_key, standing_key]
  split
  · next h => rw [h]
  · rfl

/-- What is declared for each topic is what the terms about it say. -/
def Records (r : Registry) (ts : List Terms) : Prop :=
  ∀ key, (r.standing key).Holds (ts.filter fun t => t.key = key)

theorem records_empty : empty.Records [] := Subscription.holds_nil

theorem Records.adopt {r : Registry} {ts : List Terms} (h : r.Records ts) {t : Terms}
    (hf : t.Fits (r.standing t.key)) : (r.adopt t).Records (ts ++ [t]) := by
  intro key
  -- What is declared for other topics stays, and so does the part of the log about them.
  rw [standing_adopt, List.filter_append]
  by_cases hk : key = t.key
  · subst hk
    simpa using (h t.key).adopt hf
  · simpa [hk, Ne.symm hk] using h key

/-- The declarations accepted since the registry was last cleared, after one more call. -/
def logged (r : Registry) (log : List Declaration) : Call → List Declaration
  | .clear => []
  | .register d =>
    match r.register d with
    | .ok _ => log ++ [d]
    | .error _ => log

/-- The same after some calls, one after another. -/
def loggedAll (r : Registry) (log : List Declaration) : List Call → List Declaration
  | [] => log
  | c :: cs => loggedAll (r.call c).2 (r.logged log c) cs

/-- The declarations that a run from an empty registry accepts after it was last cleared. -/
def accepted (cs : List Call) : List Declaration := empty.loggedAll [] cs

/-- What holds of an empty registry and its empty log, and survives each declaration that is accepted, holds along every
run: a declaration that is refused changes neither. -/
theorem loggedAll_induction {P : Registry → List Declaration → Prop} (hempty : P empty [])
    (hstep : ∀ {r r' log d key}, P r log → r.register d = .ok (key, r') → P r' (log ++ [d]))
    {r : Registry} {log : List Declaration} (h : P r log) (cs : List Call) : P (r.callAll cs) (r.loggedAll log cs) := by
  induction cs generalizing r log with
  | nil => exact h
  | cons c cs ih =>
    apply ih
    cases c with
    | clear => exact hempty
    | register d =>
      simp only [call, logged]
      cases hr : r.register d with
      | error e => exact h
      | ok p => exact hstep h hr

/-- What is declared for each topic is what the terms of the log say about it. -/
def Remembers (r : Registry) (log : List Declaration) : Prop :=
  ∃ ts, List.Forall₂ Declaration.Says log ts ∧ ∀ key, (r.standing key).Holds (ts.filter fun t => t.key = key)

theorem remembers_empty : empty.Remembers [] := ⟨[], .nil, records_empty⟩

theorem Remembers.register {r r' : Registry} {log : List Declaration} (h : r.Remembers log) {d : Declaration}
    {key : TopicKey} (hr : r.register d = .ok (key, r')) : r'.Remembers (log ++ [d]) := by
  obtain ⟨ts, hts, hh⟩ := h
  obtain ⟨t, ht, rfl, hf, rfl⟩ := register_eq_ok_iff.1 hr
  exact ⟨ts ++ [t], List.rel_append hts (.cons ht .nil), Records.adopt hh hf⟩

theorem Remembers.callAll {r : Registry} {log : List Declaration} (h : r.Remembers log) (cs : List Call) :
    (r.callAll cs).Remembers (r.loggedAll log cs) :=
  loggedAll_induction remembers_empty (fun h hr => h.register hr) h cs

end Registry

end PubSub

import PubSub.Proofs.Registry.Serving
/-!
# Topics apart

What is declared for a topic comes from the calls about that topic alone. `only` cuts a registry down to one topic. A
call that is about no other topic does there what it does in the whole registry (`call_only`), and one about another
topic is not seen there (`only_call_elsewhere`). So the calls about other topics can be left out of a run
(`elsewhere_unseen`).
-/
namespace PubSub

open Manifest (Entry)

namespace Call

/-- The topic that a call declares something for, if the names of one are given. -/
def topic? : Call → Option TopicKey
  | .register d => (TopicKey.ofValues d.pubsub d.topic).toOption
  | .clear => none

/-- The call declares something for another topic. -/
def IsElsewhere (key : TopicKey) (c : Call) : Prop := ∃ k ∈ c.topic?, k ≠ key

instance (key : TopicKey) (c : Call) : Decidable (c.IsElsewhere key) := inferInstanceAs (Decidable (∃ k ∈ _, _))

theorem topic?_register_eq_some_iff {d : Declaration} {key : TopicKey} :
    (register d).topic? = some key ↔ TopicKey.ofValues d.pubsub d.topic = .ok key := by
  show (TopicKey.ofValues d.pubsub d.topic).toOption = some key ↔ _
  cases TopicKey.ofValues d.pubsub d.topic with
  | error e => exact ⟨nofun, nofun⟩
  | ok k => simp only [Except.toOption, Option.some.injEq, Except.ok.injEq]

/-- Two declarations are about one topic exactly if they give the same two names. -/
theorem topic?_register_eq_iff {a d : Declaration} {key : TopicKey} (h : (register a).topic? = some key) :
    (register d).topic? = some key ↔ d.pubsub = a.pubsub ∧ d.topic = a.topic := by
  rw [topic?_register_eq_some_iff, TopicKey.ofValues_eq_ok_iff] at h ⊢
  constructor
  · rintro ⟨hp, ht⟩
    exact ⟨hp.1.1.trans h.1.1.1.symm, ht.1.1.trans h.2.1.1.symm⟩
  · rintro ⟨hp, ht⟩
    rwa [hp, ht]

end Call

/-- The entry is about a topic. -/
def Manifest.Entry.IsAbout (e : Entry) (key : TopicKey) : Prop := e.pubsub = key.pubsub ∧ e.topic = key.topic

instance (e : Entry) (key : TopicKey) : Decidable (e.IsAbout key) := inferInstanceAs (Decidable (_ ∧ _))

namespace Registry

/-- The registry without all topics but one. -/
def only (key : TopicKey) (r : Registry) : Registry := ⟨r.subscriptions.filter fun s => s.key = key⟩

/-- What each call of a run comes to, beside the call. -/
def outcomes (r : Registry) : List Call → List (Call × Except ConfigError (Option TopicKey))
  | [] => []
  | c :: cs => (c, (r.call c).1) :: outcomes (r.call c).2 cs

/-! ## One call -/

section One
variable {r : Registry} {key : TopicKey}

theorem find?_only : (r.only key).find? key = r.find? key := by
  simp [find?, only, List.find?_filter]

theorem only_put {s : Subscription} (h : s.key = key) : (r.put s).only key = (r.only key).put s := by
  obtain ⟨l⟩ := r
  simp only [only, put, mk.injEq]
  induction l with
  | nil => simp [putInto, h]
  | cons t l ih =>
    by_cases ht : t.key = key
    · simp [putInto, ht, h]
    · have hs : t.key ≠ s.key := h ▸ ht
      simpa [putInto, ht, hs] using ih

theorem only_put_elsewhere {s : Subscription} (h : s.key ≠ key) : (r.put s).only key = r.only key := by
  obtain ⟨l⟩ := r
  simp only [only, put, mk.injEq]
  induction l with
  | nil => simp [putInto, h]
  | cons t l ih =>
    by_cases ht : t.key = s.key
    · simp [putInto, ht, h]
    · by_cases hk : t.key = key
      · have hs : key ≠ s.key := Ne.symm h
        simpa [putInto, hk, hs] using ih
      · simpa [putInto, hk, ht] using ih

/-- A declaration is taken in or refused by what stands for its topic, and changes that alone. -/
theorem register_eq_map {d : Declaration} (h : TopicKey.ofValues d.pubsub d.topic = .ok key) :
    r.register d = ((r.standing key).declare d).map fun s => (key, r.put s) := by
  show ((TopicKey.ofValues d.pubsub d.topic) >>= fun k => (r.standing k).declare d >>= fun s => pure (k, r.put s)) = _
  rw [h]
  show ((r.standing key).declare d >>= fun s => pure (key, r.put s)) = _
  cases (r.standing key).declare d with
  | error e => rfl
  | ok s => rfl

theorem key_of_declare {s s' : Subscription} {d : Declaration} (h : s.declare d = .ok s') : s'.key = s.key := by
  obtain ⟨t, -, -, -, -, -, -, rfl⟩ := Subscription.declare_eq_ok_iff.1 h
  exact adopt_key s t

theorem standing_only : (r.only key).standing key = r.standing key := by
  unfold standing
  rw [find?_only]

/-- A call that is about no other topic comes to the same where there is no other topic. -/
theorem call_only {c : Call} (h : ¬ c.IsElsewhere key) :
    (r.only key).call c = ((r.call c).1, (r.call c).2.only key) := by
  cases c with
  | clear => rfl
  | register d =>
    cases hk : TopicKey.ofValues d.pubsub d.topic with
    | error e =>
      have hr : ∀ q : Registry, q.register d = .error e := by
        intro q
        unfold register
        rw [hk]
        rfl
      simp only [call, hr]
    | ok k =>
      obtain rfl : k = key := by
        by_contra hne
        exact h ⟨k, Call.topic?_register_eq_some_iff.2 hk, hne⟩
      simp only [call, register_eq_map hk, standing_only]
      cases hs : (r.standing k).declare d with
      | error e => rfl
      | ok s =>
        have hsk := (key_of_declare hs).trans (r.standing_key k)
        simp only [Except.map, only_put hsk]

theorem only_call_elsewhere {c : Call} (h : c.IsElsewhere key) : (r.call c).2.only key = r.only key := by
  obtain ⟨k, hk, hne⟩ := h
  cases c with
  | clear => cases hk
  | register d =>
    simp only [call, register_eq_map (Call.topic?_register_eq_some_iff.1 hk)]
    cases hs : (r.standing k).declare d with
    | error e => rfl
    | ok s =>
      have hsk := (key_of_declare hs).trans (r.standing_key k)
      exact only_put_elsewhere (hsk ▸ hne)

end One

/-! ## A run of calls -/

theorem callAll_filter (r : Registry) (key : TopicKey) (cs : List Call) :
    (r.only key).callAll (cs.filter fun c => ¬ c.IsElsewhere key) = (r.callAll cs).only key := by
  induction cs generalizing r with
  | nil => rfl
  | cons c cs ih =>
    refine Eq.trans ?_ (ih (r.call c).2)
    by_cases hc : c.IsElsewhere key
    · rw [List.filter_cons_of_neg (by simpa using hc), only_call_elsewhere hc]
    · rw [List.filter_cons_of_pos (by simpa using hc)]
      simp only [callAll, List.foldl_cons, call_only hc]

theorem outcomes_filter (r : Registry) (key : TopicKey) (cs : List Call) :
    (r.only key).outcomes (cs.filter fun c => ¬ c.IsElsewhere key) =
      (r.outcomes cs).filter fun p => ¬ p.1.IsElsewhere key := by
  induction cs generalizing r with
  | nil => rfl
  | cons c cs ih =>
    by_cases hc : c.IsElsewhere key
    · rw [List.filter_cons_of_neg (by simpa using hc), outcomes, List.filter_cons_of_neg (by simpa using hc),
        ← ih, only_call_elsewhere hc]
    · rw [List.filter_cons_of_pos (by simpa using hc), outcomes, outcomes,
        List.filter_cons_of_pos (by simpa using hc), ← ih, call_only hc]

/-! ## What is served for one topic -/

/-- The entries of one topic are those that are about it. -/
theorem Sound.entries_only {r : Registry} (h : r.Sound) (key : TopicKey) {es : List Entry} (he : r.entries = .ok es) :
    (r.only key).entries = .ok (es.filter fun e => e.IsAbout key) := by
  have hm : List.Forall₂ (fun s e => s.toEntry = .ok e ∧ (s.key = key ↔ e.IsAbout key)) r.subscriptions es := by
    refine (h.entries_eq_ok_iff.1 he).imp ?_
    rintro s e ⟨hs, hb⟩
    refine ⟨(Subscription.toEntry_eq_ok_iff hs.names).2 hb, ?_⟩
    obtain ⟨bulk?, -, rfl⟩ := hb
    obtain ⟨⟨p, t⟩⟩ := s
    obtain ⟨p', t'⟩ := key
    simp only [TopicKey.mk.injEq, Entry.IsAbout, Subscription.entryWith]
  refine mapM_eq_ok_iff.2 (List.Forall₂.imp (fun s e hse => hse.1) (List.rel_filter ?_ hm))
  rintro s e ⟨-, hk⟩
  simpa only [decide_eq_true_eq] using hk

end Registry

/-! ## Leaving calls out -/

/-- Calls about other topics can be left out of a run. The other calls come to the same, the same is declared for the
topic, and it has the same entry. Two declarations are about one topic exactly if they give the same two names. -/
theorem elsewhere_unseen (key : TopicKey) (cs : List Call) :
    let here := cs.filter fun c => ¬ c.IsElsewhere key
    (Registry.empty.outcomes here = (Registry.empty.outcomes cs).filter fun p => ¬ p.1.IsElsewhere key) ∧
    ((Registry.empty.callAll here).find? key = (Registry.empty.callAll cs).find? key) ∧
    (∀ es, (Registry.empty.callAll cs).entries = .ok es →
      (Registry.empty.callAll here).entries = .ok (es.filter fun e => e.IsAbout key)) ∧
    ∀ a d : Declaration, (Call.register a).topic? = some key →
      ((Call.register d).topic? = some key ↔ d.pubsub = a.pubsub ∧ d.topic = a.topic) := by
  have hr : Registry.empty.callAll (cs.filter fun c => ¬ c.IsElsewhere key) = (Registry.empty.callAll cs).only key :=
    Registry.callAll_filter Registry.empty key cs
  refine ⟨Registry.outcomes_filter Registry.empty key cs, ?_, ?_, fun a d => Call.topic?_register_eq_iff⟩
  · rw [hr, Registry.find?_only]
  · intro es he
    rw [hr]
    exact (Registry.sound_empty.callAll cs).entries_only key he

/-- A declaration of a route and nothing else, for a topic of the component `pubsub`. -/
def routeFor (topic path : String) : Declaration :=
  { pubsub := .text (lit "pubsub"), topic := .text (lit topic), route := .text (lit path) }

/-- Calls about two topics by turns. The second call about each of them is refused. -/
def alternatingCalls : List Call :=
  [.register (routeFor "returns" "/r"), .register (routeFor "orders" "/o"), .register (routeFor "returns" "/again"),
    .register (routeFor "orders" "/again")]

/-- What is declared for the one topic, and its entry, without the calls about the other. -/
theorem elsewhere_unseen_alternating :
    let key : TopicKey := ⟨lit "pubsub", lit "orders"⟩
    let here := alternatingCalls.filter fun c => ¬ c.IsElsewhere key
    (here.length = 2) ∧
    (∃ s, (Registry.empty.callAll alternatingCalls).find? key = some s ∧
      (Registry.empty.callAll here).find? key = some s) ∧
    ∃ es, (Registry.empty.callAll alternatingCalls).entries = .ok es ∧
      (Registry.empty.callAll here).entries = .ok (es.filter fun e => e.IsAbout key) := by
  have h := elsewhere_unseen ⟨lit "pubsub", lit "orders"⟩ alternatingCalls
  have hb : (Registry.empty.callAll alternatingCalls).subscriptions.map Subscription.bulk? = [none, none] := rfl
  obtain ⟨es, he⟩ := (Registry.sound_empty.callAll alternatingCalls).entries_isOk_iff.2 fun s hs b hsb => by
    simpa [hb, Option.mem_def.1 hsb] using List.mem_map_of_mem (f := Subscription.bulk?) hs
  exact ⟨rfl, ⟨_, rfl, h.2.1.trans rfl⟩, es, he, h.2.2.1 es he⟩

end PubSub

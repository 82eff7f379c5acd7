import Mathlib.Data.List.Pairwise
import PubSub.Proofs.Registry.Log
/-!
# Terms adopted one after another

What the terms of several declarations make of a registry: each field of a topic is read off them (`rules_adoptAll` and
its neighbours), and terms that were adopted once change nothing when they are adopted again (`adoptAll_again`). Terms
are accepted in their turn exactly if no two of them contradict each other (`admits_empty_iff`), so neither their order
nor how often they come makes a difference to whether they are.
-/
namespace PubSub

namespace Delivery

def path? : Delivery → Option Text
  | .default path => some path
  | .rule _ => none

def rule? : Delivery → Option RoutingRule
  | .default _ => none
  | .rule r => some r

theorem Agrees.symm {x y : Delivery} (h : x.Agrees y) : y.Agrees x := by
  cases x <;> cases y
  case rule.rule x y =>
    intro he
    exact (h he.symm).symm
  case default.default p q => exact Eq.symm h
  all_goals trivial

theorem agrees_refl (x : Delivery) : x.Agrees x := by
  cases x with
  | default p => rfl
  | rule r => exact fun _ => rfl

end Delivery

namespace Terms

/-- The default path that the terms set. -/
def path? (t : Terms) : Option Text := t.delivery.path?

/-- The rule that the terms add. -/
def rule? (t : Terms) : Option RoutingRule := t.delivery.rule?

/-- The value that the terms give to a name of metadata. -/
def value? (name : Text) (t : Terms) : Option Text := Assoc.find? name t.metadata.reverse

/-- Terms of one topic do not contradict each other. -/
def Concord (u t : Terms) : Prop := u.key = t.key → u.Agrees t

theorem Concord.symm {u t : Terms} (h : u.Concord t) : t.Concord u := by
  intro hk
  obtain ⟨hd, hl⟩ := h hk.symm
  exact ⟨hd.symm, fun p hp q hq => (hl q hq p hp).symm⟩

theorem concord_refl (t : Terms) : t.Concord t := by
  intro _
  refine ⟨t.delivery.agrees_refl, fun p hp q hq => ?_⟩
  exact Option.some.inj (hp.symm.trans hq)

end Terms

/-! ## One topic -/

attribute [ext] Subscription

namespace Subscription

/-- The subscription with the terms of several declarations, one after another. -/
def adoptAll (s : Subscription) (ts : List Terms) : Subscription := ts.foldl adopt s

section Fields
variable (s : Subscription) (t : Terms) (ts : List Terms)

theorem rules_adopt : (s.adopt t).rules = t.rule?.toList.foldl addNew s.rules := by
  obtain ⟨key, _ | r, deadLetter?, metadata, bulk?⟩ := t <;> rfl

theorem defaultPath?_adopt : (s.adopt t).defaultPath? = t.path?.or s.defaultPath? := by
  obtain ⟨key, _ | r, deadLetter?, metadata, bulk?⟩ := t <;> rfl

theorem find?_metadata_adopt (name : Text) :
    Assoc.find? name (s.adopt t).metadata = (t.value? name).or (Assoc.find? name s.metadata) :=
  Assoc.find?_insertAll name t.metadata s.metadata

theorem key_adoptAll : (s.adoptAll ts).key = s.key := by
  induction ts generalizing s with
  | nil => rfl
  | cons t ts ih => exact (ih _).trans (Registry.adopt_key s t)

theorem rules_adoptAll : (s.adoptAll ts).rules = (ts.filterMap Terms.rule?).foldl addNew s.rules := by
  induction ts generalizing s with
  | nil => rfl
  | cons t ts ih =>
    refine (ih _).trans ?_
    rw [rules_adopt, List.filterMap_cons]
    cases t.rule? <;> rfl

theorem defaultPath?_adoptAll : (s.adoptAll ts).defaultPath? = (latest? Terms.path? ts).or s.defaultPath? :=
  foldl_eq_latest? defaultPath?_adopt s ts

theorem deadLetter?_adoptAll : (s.adoptAll ts).deadLetter? = (latest? Terms.deadLetter? ts).or s.deadLetter? :=
  foldl_eq_latest? (g := deadLetter?) (fun _ _ => rfl) s ts

theorem bulk?_adoptAll : (s.adoptAll ts).bulk? = (latest? Terms.bulk? ts).or s.bulk? :=
  foldl_eq_latest? (g := bulk?) (fun _ _ => rfl) s ts

theorem metadata_adoptAll : (s.adoptAll ts).metadata = Assoc.insertAll (ts.flatMap Terms.metadata) s.metadata := by
  unfold Assoc.insertAll
  rw [List.foldl_flatMap]
  induction ts generalizing s with
  | nil => rfl
  | cons t ts ih => exact ih _

theorem find?_metadata_adoptAll (name : Text) : Assoc.find? name (s.adoptAll ts).metadata =
    (latest? (Terms.value? name) ts).or (Assoc.find? name s.metadata) :=
  foldl_eq_latest? (g := fun s => Assoc.find? name s.metadata) (fun s t => find?_metadata_adopt s t name) s ts

end Fields

theorem nodup_keys_metadata_adoptAll {s : Subscription} (h : (Assoc.keys s.metadata).Nodup) (ts : List Terms) :
    (Assoc.keys (s.adoptAll ts).metadata).Nodup := by
  rw [metadata_adoptAll]
  exact Assoc.nodup_keys_insertAll _ h

/-- The same terms once more change nothing. -/
theorem adoptAll_again {s : Subscription} (h : (Assoc.keys s.metadata).Nodup) (ts : List Terms) :
    (s.adoptAll ts).adoptAll ts = s.adoptAll ts := by
  have hor : ∀ {α : Type} (a? b? : Option α), a?.or (a?.or b?) = a?.or b? := by
    intro α a? b?
    rw [← Option.or_assoc, Option.or_self]
  apply Subscription.ext
  · rw [key_adoptAll]
  · rw [rules_adoptAll, rules_adoptAll, foldl_addNew_again]
  · rw [defaultPath?_adoptAll, defaultPath?_adoptAll, hor]
  · rw [deadLetter?_adoptAll, deadLetter?_adoptAll, hor]
  · rw [metadata_adoptAll, metadata_adoptAll, Assoc.insertAll_again _ h]
  · rw [bulk?_adoptAll, bulk?_adoptAll, hor]

end Subscription

/-! ## A registry -/

namespace Registry

/-- The registry with the terms of several declarations, one after another. -/
def adoptAll (r : Registry) (ts : List Terms) : Registry := ts.foldl adopt r

/-- Each of the terms fits what is declared for its topic when its turn comes. -/
def Admits (r : Registry) : List Terms → Prop
  | [] => True
  | t :: ts => t.Fits (r.standing t.key) ∧ (r.adopt t).Admits ts

theorem register_of_says {r : Registry} {d : Declaration} {t : Terms} (h : d.Says t)
    (hf : t.Fits (r.standing t.key)) : r.register d = .ok (t.key, r.adopt t) :=
  register_eq_ok_iff.2 ⟨t, h, rfl, hf, rfl⟩

theorem adoptAll_append (r : Registry) (ts us : List Terms) :
    r.adoptAll (ts ++ us) = (r.adoptAll ts).adoptAll us := List.foldl_append

theorem admits_append {r : Registry} {ts us : List Terms} :
    r.Admits (ts ++ us) ↔ r.Admits ts ∧ (r.adoptAll ts).Admits us := by
  induction ts generalizing r with
  | nil => exact (and_iff_right trivial).symm
  | cons t ts ih => exact (and_congr_right fun _ => ih).trans and_assoc.symm

theorem standing_adoptAll (r : Registry) (ts : List Terms) (key : TopicKey) :
    (r.adoptAll ts).standing key = (r.standing key).adoptAll (ts.filter fun t => t.key = key) := by
  induction ts generalizing r with
  | nil => rfl
  | cons t ts ih =>
    refine (ih _).trans ?_
    rw [standing_adopt]
    by_cases hk : key = t.key
    · subst hk
      simp [Subscription.adoptAll]
    · simp [hk, Ne.symm hk]

theorem keys_adoptAll (r : Registry) (ts : List Terms) :
    (r.adoptAll ts).keys = (ts.map Terms.key).foldl addNew r.keys := by
  induction ts generalizing r with
  | nil => rfl
  | cons t ts ih =>
    refine (ih _).trans ?_
    unfold adopt
    rw [keys_put, adopt_key, standing_key]
    rfl

theorem nodup_keys_adoptAll {r : Registry} (h : r.keys.Nodup) (ts : List Terms) : (r.adoptAll ts).keys.Nodup := by
  rw [keys_adoptAll]
  exact nodup_foldl_addNew h _

/-! ## Registries by topic -/

theorem find?_of_mem {r : Registry} (h : r.keys.Nodup) {s : Subscription} (hs : s ∈ r.subscriptions) :
    r.find? s.key = some s := by
  obtain ⟨x, hx⟩ : ∃ x, r.find? s.key = some x := by
    apply Option.isSome_iff_exists.1
    apply List.find?_isSome.2
    exact ⟨s, hs, decide_eq_true rfl⟩
  have hk : x.key = s.key := by simpa using List.find?_some hx
  rw [hx, List.inj_on_of_nodup_map h (List.mem_of_find?_eq_some hx) hs hk]

theorem standing_of_mem {r : Registry} (h : r.keys.Nodup) {s : Subscription} (hs : s ∈ r.subscriptions) :
    r.standing s.key = s := by
  unfold standing
  rw [find?_of_mem h hs]
  rfl

/-- What is declared for a topic, from an empty registry on, is what the terms about it make of nothing. -/
theorem eq_adoptAll_of_mem {ts : List Terms} {s : Subscription} (hs : s ∈ (empty.adoptAll ts).subscriptions) :
    s = ({ key := s.key } : Subscription).adoptAll (ts.filter fun t => t.key = s.key) := by
  have hst := standing_adoptAll empty ts s.key
  rwa [standing_of_mem (nodup_keys_adoptAll (r := empty) List.nodup_nil ts) hs] at hst

/-- A registry is its topics with what is declared for each. -/
theorem subscriptions_eq {r : Registry} (h : r.keys.Nodup) : r.subscriptions = r.keys.map r.standing := by
  have hs : r.subscriptions.map (r.standing ∘ Subscription.key) = r.subscriptions.map id := by
    apply List.map_congr_left
    intro s hs
    exact standing_of_mem h hs
  unfold keys
  rw [List.map_map, hs, List.map_id]

theorem eq_of_standing_eq {r r' : Registry} (hk : r.keys = r'.keys) (h : r.keys.Nodup)
    (hs : ∀ key, r.standing key = r'.standing key) : r = r' := by
  have hl : r.subscriptions = r'.subscriptions := by
    rw [subscriptions_eq h, subscriptions_eq (hk ▸ h), hk, funext hs]
  exact congrArg Registry.mk hl

/-- The same terms once more change nothing. -/
theorem adoptAll_again {r : Registry} (hk : r.keys.Nodup) (hn : ∀ key, (Assoc.keys (r.standing key).metadata).Nodup)
    (ts : List Terms) : (r.adoptAll ts).adoptAll ts = r.adoptAll ts := by
  have hkeys : ((r.adoptAll ts).adoptAll ts).keys = (r.adoptAll ts).keys := by
    rw [keys_adoptAll, keys_adoptAll, foldl_addNew_again]
  apply eq_of_standing_eq hkeys
  · rw [hkeys]
    exact nodup_keys_adoptAll hk ts
  · intro key
    rw [standing_adoptAll, standing_adoptAll]
    exact Subscription.adoptAll_again (hn key) _

/-! ## Which terms are admitted -/

theorem Records.adoptAll {r : Registry} {us ts : List Terms} (h : r.Records us) (ha : r.Admits ts) :
    (r.adoptAll ts).Records (us ++ ts) := by
  induction ts generalizing r us with
  | nil => rwa [List.append_nil]
  | cons t ts ih =>
    have hs := ih (h.adopt ha.1) ha.2
    rwa [List.append_assoc] at hs

theorem Records.fits_iff {r : Registry} {us : List Terms} (h : r.Records us) {t : Terms} :
    t.Fits (r.standing t.key) ↔ ∀ u ∈ us, u.Concord t := by
  rw [(h t.key).fits_iff]
  simp only [List.mem_filter, decide_eq_true_eq, and_imp]
  rfl

/-- Terms are admitted if they contradict neither what is recorded nor each other. -/
theorem Records.admits_iff {r : Registry} {us ts : List Terms} (h : r.Records us) :
    r.Admits ts ↔ (∀ u ∈ us, ∀ t ∈ ts, u.Concord t) ∧ ts.Pairwise Terms.Concord := by
  induction ts generalizing r us with
  | nil => simp [Admits]
  | cons t ts ih =>
    rw [Admits, h.fits_iff, List.pairwise_cons]
    constructor
    · rintro ⟨hf, ha⟩
      obtain ⟨hu, hp⟩ := (ih (h.adopt (h.fits_iff.2 hf))).1 ha
      refine ⟨fun u hm => List.forall_mem_cons.2 ⟨hf u hm, ?_⟩, ?_, hp⟩
      · exact hu u (List.mem_append_left _ hm)
      · exact hu t (List.mem_append_right _ (List.mem_singleton_self t))
    · rintro ⟨hu, ht, hp⟩
      have hf : ∀ u ∈ us, u.Concord t := fun u hm => hu u hm t List.mem_cons_self
      refine ⟨hf, (ih (h.adopt (h.fits_iff.2 hf))).2 ⟨fun u hm => ?_, hp⟩⟩
      rcases List.mem_append.1 hm with hm | hm
      · exact fun x hx => hu u hm x (List.mem_cons_of_mem t hx)
      · rw [List.mem_singleton.1 hm]
        exact ht

/-- From an empty registry on, terms are admitted if no two of them contradict each other. Neither their order nor how
often they come plays a part. -/
theorem admits_empty_iff {ts : List Terms} : empty.Admits ts ↔ ∀ u ∈ ts, ∀ t ∈ ts, u.Concord t := by
  have : Std.Symm Terms.Concord := ⟨fun _ _ => Terms.Concord.symm⟩
  rw [records_empty.admits_iff]
  constructor
  · rintro ⟨-, hp⟩
    exact hp.forall_of_forall fun t _ => t.concord_refl
  · intro h
    exact ⟨nofun, List.pairwise_of_forall_mem_list h⟩

theorem admits_empty_of_subset {ts ts' : List Terms} (h : empty.Admits ts) (hs : ts' ⊆ ts) : empty.Admits ts' := by
  rw [admits_empty_iff] at h ⊢
  intro u hu t ht
  exact h u (hs hu) t (hs ht)

/-! ## Declarations one after another -/

/-- The registry after some declarations one after another, if all are accepted. -/
def registerAll (r : Registry) (ds : List Declaration) : Except ConfigError Registry :=
  ds.foldlM (fun r d => (r.register d).map Prod.snd) r

theorem registerAll_eq_ok_iff {r r' : Registry} {ds : List Declaration} : r.registerAll ds = .ok r' ↔
    ∃ ts, List.Forall₂ Declaration.Says ds ts ∧ r.Admits ts ∧ r' = r.adoptAll ts := by
  unfold registerAll
  induction ds generalizing r with
  | nil =>
    rw [List.foldlM_nil, pure_eq_ok_iff]
    constructor
    · intro h
      exact ⟨[], .nil, trivial, h⟩
    · rintro ⟨_, ⟨⟩, -, h⟩
      exact h
  | cons d ds ih =>
    simp only [List.foldlM_cons, bind_eq_ok_iff, map_eq_ok_iff, ih]
    constructor
    · rintro ⟨_, ⟨⟨key, r₁⟩, hr, rfl⟩, ts, hts, ha, h⟩
      obtain ⟨t, ht, rfl, hf, rfl⟩ := register_eq_ok_iff.1 hr
      exact ⟨t :: ts, .cons ht hts, ⟨hf, ha⟩, h⟩
    · rintro ⟨_, _ | ⟨ht, hts⟩, ha, h⟩
      exact ⟨_, ⟨_, register_of_says ht ha.1, rfl⟩, _, hts, ha.2, h⟩

/-- Declarations that are all accepted are a run of calls. -/
theorem callAll_of_registerAll {r r' : Registry} {ds : List Declaration} (h : r.registerAll ds = .ok r') :
    r.callAll (ds.map .register) = r' := by
  induction ds generalizing r with
  | nil => exact Except.ok.inj h
  | cons d ds ih =>
    unfold registerAll at h
    simp only [List.foldlM_cons, bind_eq_ok_iff, map_eq_ok_iff] at h
    obtain ⟨_, ⟨⟨key, r₁⟩, hr, rfl⟩, h⟩ := h
    have hc : (r.call (.register d)).2 = r₁ := by
      simp only [call, hr]
    rw [← ih h, ← hc]
    rfl

/-! ## What a run leads to -/

/-- The registry after a run is what the terms of the accepted declarations make of an empty one. -/
theorem exists_adoptAll (cs : List Call) : ∃ ts, List.Forall₂ Declaration.Says (accepted cs) ts ∧ empty.Admits ts ∧
    empty.callAll cs = empty.adoptAll ts := by
  refine loggedAll_induction (P := fun r log => ∃ ts, List.Forall₂ Declaration.Says log ts ∧ empty.Admits ts ∧
    r = empty.adoptAll ts) ⟨[], .nil, trivial, rfl⟩ ?_ ⟨[], .nil, trivial, rfl⟩ cs
  rintro _ r' log d key ⟨ts, hts, ha, rfl⟩ hr
  obtain ⟨t, ht, rfl, hf, rfl⟩ := register_eq_ok_iff.1 hr
  refine ⟨ts ++ [t], List.rel_append hts (.cons ht .nil), admits_append.2 ⟨ha, hf, trivial⟩, ?_⟩
  rw [adoptAll_append]
  rfl

end Registry

end PubSub

import Mathlib.Data.List.Perm.Basic
import PubSub.Proofs.Registry.Adoption
import PubSub.Proofs.Registry.Serving
/-!
# Declarations in another order

Declarations that are accepted in one order are accepted in every order. The order shows in how the rules of a topic are
listed, but an entry lists them by priority, and likewise metadata by name. Values of metadata and bulk settings are
those of the latest declaration, so where the declarations of a topic agree on them, each topic has the same entry in
the end (`registerAll_perm`).
-/
namespace PubSub

/-! ## Entries of one content -/

namespace Subscription

/-- The same is declared, with rules and metadata perhaps in another order. -/
structure Alike (s u : Subscription) : Prop where
  key : s.key = u.key
  rules : s.rules.Perm u.rules
  defaultPath : s.defaultPath? = u.defaultPath?
  deadLetter : s.deadLetter? = u.deadLetter?
  metadata : s.metadata.Perm u.metadata
  bulk : s.bulk? = u.bulk?

namespace Alike

variable {s u : Subscription}

/-- Distinct priorities leave one order for the rules. -/
theorem orderedRules_eq (h : s.Alike u) (hp : (s.rules.map RoutingRule.priority).Nodup) :
    s.orderedRules = u.orderedRules := by
  have hu : (u.rules.map RoutingRule.priority).Nodup := (h.rules.map _).nodup_iff.1 hp
  apply List.Perm.eq_of_pairwise _ (pairwise_orderedRules hp) (pairwise_orderedRules hu)
  · exact (List.mergeSort_perm _ _).trans (h.rules.trans (List.mergeSort_perm _ _).symm)
  · intro a b _ _ hab hba
    exact absurd hba (Int.lt_asymm hab)

/-- Distinct names leave one order for the metadata. -/
theorem orderedMetadata_eq (h : s.Alike u) (hn : (Assoc.keys s.metadata).Nodup) :
    s.orderedMetadata = u.orderedMetadata := by
  have hu : (Assoc.keys u.metadata).Nodup := (h.metadata.map _).nodup_iff.1 hn
  apply List.Perm.eq_of_pairwise _ (Text.pairwise_before_mergeSort hn) (Text.pairwise_before_mergeSort hu)
  · exact (List.mergeSort_perm _ _).trans (h.metadata.trans (List.mergeSort_perm _ _).symm)
  · intro a b _ _ hab hba
    exact absurd hba (List.lex_asymm Nat.lt_asymm hab)

theorem isRouted_iff (h : s.Alike u) : s.IsRouted ↔ u.IsRouted := by
  apply not_congr
  rw [← List.perm_nil, ← List.perm_nil]
  exact h.rules.congr_left []

/-- The entry is the same. -/
theorem toEntry_eq (h : s.Alike u) (hp : (s.rules.map RoutingRule.priority).Nodup)
    (hn : (Assoc.keys s.metadata).Nodup) : s.toEntry = u.toEntry := by
  unfold toEntry routes? route?
  simp only [h.isRouted_iff, h.orderedRules_eq hp, h.orderedMetadata_eq hn, h.key, h.defaultPath, h.deadLetter, h.bulk]

end Alike

end Subscription

/-! ## Terms in another order -/

/-- Terms of one topic set no bulk settings that differ and give no name different values. -/
def Terms.SameSettings (u t : Terms) : Prop :=
  u.key = t.key → (∀ b ∈ u.bulk?, ∀ c ∈ t.bulk?, b = c) ∧
    ∀ name, ∀ v ∈ u.value? name, ∀ w ∈ t.value? name, v = w

namespace Terms

theorem Agrees.path {u t : Terms} (h : u.Agrees t) : ∀ p ∈ u.path?, ∀ q ∈ t.path?, p = q := by
  obtain ⟨key, x, deadLetter?, metadata, bulk?⟩ := u
  obtain ⟨key', y, deadLetter?', metadata', bulk?'⟩ := t
  obtain ⟨hd, -⟩ := h
  cases x <;> cases y
  case default.default p q =>
    rintro _ ⟨⟩ _ ⟨⟩
    exact hd
  all_goals exact nofun

end Terms

namespace Subscription

/-- What terms of a topic that agree make of a subscription does not depend on their order, but for how rules and
metadata are listed. -/
theorem alike_adoptAll {s : Subscription} (hr : s.rules.Nodup) (hn : (Assoc.keys s.metadata).Nodup)
    {ts ts' : List Terms} (hk : ∀ t ∈ ts, t.key = s.key) (ha : ∀ u ∈ ts, ∀ t ∈ ts, u.Concord t)
    (hs : ∀ u ∈ ts, ∀ t ∈ ts, u.SameSettings t) (hp : ts.Perm ts') : (s.adoptAll ts).Alike (s.adoptAll ts') := by
  have hkey : ∀ u ∈ ts, ∀ t ∈ ts, u.key = t.key := by
    intro u hu t ht
    rw [hk u hu, hk t ht]
  have hag : ∀ u ∈ ts, ∀ t ∈ ts, u.Agrees t := fun u hu t ht => ha u hu t ht (hkey u hu t ht)
  refine ⟨?_, ?_, ?_, ?_, ?_, ?_⟩
  · rw [key_adoptAll, key_adoptAll]
  · rw [rules_adoptAll, rules_adoptAll]
    exact foldl_addNew_perm hr (hp.filterMap _)
  · rw [defaultPath?_adoptAll, defaultPath?_adoptAll, latest?_perm (fun u hu t ht => (hag u hu t ht).path) hp]
  · rw [deadLetter?_adoptAll, deadLetter?_adoptAll, latest?_perm (fun u hu t ht => (hag u hu t ht).deadLetter) hp]
  · apply Assoc.perm_of_find?_eq (nodup_keys_metadata_adoptAll hn ts) (nodup_keys_metadata_adoptAll hn ts')
    intro name
    rw [find?_metadata_adoptAll, find?_metadata_adoptAll,
      latest?_perm (fun u hu t ht => (hs u hu t ht (hkey u hu t ht)).2 name) hp]
  · rw [bulk?_adoptAll, bulk?_adoptAll, latest?_perm (fun u hu t ht => (hs u hu t ht (hkey u hu t ht)).1) hp]

end Subscription

namespace Registry

/-- The same topics, perhaps in another order, and the same declared for each. -/
structure Alike (r r' : Registry) : Prop where
  keys : r.keys.Perm r'.keys
  standing : ∀ key, (r.standing key).Alike (r'.standing key)

theorem alike_adoptAll {ts ts' : List Terms} (ha : empty.Admits ts) (hs : ∀ u ∈ ts, ∀ t ∈ ts, u.SameSettings t)
    (hp : ts.Perm ts') : (empty.adoptAll ts).Alike (empty.adoptAll ts') := by
  have hc := admits_empty_iff.1 ha
  constructor
  · rw [keys_adoptAll, keys_adoptAll]
    exact foldl_addNew_perm List.nodup_nil (hp.map _)
  · intro key
    rw [standing_adoptAll, standing_adoptAll]
    apply Subscription.alike_adoptAll (s := { key }) List.nodup_nil List.nodup_nil _ _ _ (hp.filter _)
    · intro t ht
      exact of_decide_eq_true (List.mem_filter.1 ht).2
    · intro u hu t ht
      exact hc u (List.mem_filter.1 hu).1 t (List.mem_filter.1 ht).1
    · intro u hu t ht
      exact hs u (List.mem_filter.1 hu).1 t (List.mem_filter.1 ht).1

namespace Alike

variable {r r' : Registry} (h : r.Alike r') (hs : r.Sound)
include h hs

theorem nodup_keys : r'.keys.Nodup := h.keys.nodup_iff.1 hs.keys

theorem toEntry_standing (key : TopicKey) : (r.standing key).toEntry = (r'.standing key).toEntry := by
  obtain ⟨hp, hn⟩ := hs.nodup_standing key
  exact (h.standing key).toEntry_eq hp hn

/-- The entries are the same, perhaps in another order. -/
theorem exists_entries {es : List Manifest.Entry} (he : r.entries = .ok es) :
    ∃ es', r'.entries = .ok es' ∧ es.Perm es' := by
  have hf : List.Forall₂ (fun key e => (r'.standing key).toEntry = .ok e) r.keys es := by
    have hm := mapM_eq_ok_iff.1 he
    rw [subscriptions_eq hs.keys, List.forall₂_map_left_iff] at hm
    refine hm.imp fun key e hx => ?_
    rw [← h.toEntry_standing hs]
    exact hx
  obtain ⟨es', hf', hp⟩ := List.perm_comp_forall₂ h.keys.symm hf
  refine ⟨es', ?_, hp.symm⟩
  apply mapM_eq_ok_iff.2
  rw [subscriptions_eq (h.nodup_keys hs), List.forall₂_map_left_iff]
  exact hf'

/-- Bulk settings are the same, so the one is served if the other is. -/
theorem render_isOk_iff (hs' : r'.Sound) : (∃ bs, r.render = .ok bs) ↔ ∃ bs, r'.render = .ok bs := by
  rw [hs.render_isOk_iff, hs'.render_isOk_iff, subscriptions_eq hs.keys, subscriptions_eq hs'.keys]
  simp only [List.forall_mem_map, h.keys.mem_iff, (h.standing _).bulk]

end Alike

end Registry

/-! ## Declarations in another order -/

namespace Declaration

/-- The declaration gives a value to a name of metadata. -/
def Supplies (d : Declaration) (name value : Text) : Prop :=
  ∃ entries, d.metadata.entries? = some entries ∧ (.text name, .text value) ∈ entries

/-- Two declarations have nothing to override in each other: they give the same values to the names that both give, and
set the same bulk settings if both set any. -/
structure Concurs (a d : Declaration) : Prop where
  metadata : ∀ name v w, a.Supplies name v → d.Supplies name w → v = w
  bulk : a.bulk ≠ .none → d.bulk ≠ .none → a.bulk = d.bulk

theorem GivesMetadata.supplies {d : Declaration} {metadata : List (Text × Text)} (h : d.GivesMetadata metadata)
    {name value : Text} (hm : (name, value) ∈ metadata) : d.Supplies name value := by
  rcases h with ⟨-, rfl⟩ | ⟨-, entries, he, hp⟩
  · cases hm
  · obtain ⟨⟨n, v⟩, hx, hn, hv⟩ := exists_of_mem_right hp hm
    refine ⟨entries, he, ?_⟩
    rwa [← hn.1, ← hv.1]

theorem SetsBulk.ne_none {d : Declaration} {b : BulkSettings} (h : d.SetsBulk (some b)) : d.bulk ≠ .none := by
  intro hn
  cases hn.symm.trans h

theorem sameSettings_of_says {a d : Declaration} {u t : Terms} (hu : a.Says u) (ht : d.Says t)
    (h : a.pubsub = d.pubsub → a.topic = d.topic → a.Concurs d) : u.SameSettings t := by
  intro hk
  have hp : a.pubsub = d.pubsub := by rw [hu.pubsub.1.1, ht.pubsub.1.1, hk]
  have hn : a.topic = d.topic := by rw [hu.topic.1.1, ht.topic.1.1, hk]
  obtain ⟨hm, hb⟩ := h hp hn
  constructor
  · intro b hub c htc
    have hab := hu.bulk
    have hdc := ht.bulk
    rw [hub] at hab
    rw [htc] at hdc
    have he : b.toValue = c.toValue := by rw [← hab, ← hdc, hb hab.ne_none hdc.ne_none]
    exact Option.some.inj (congrArg BulkSettings.ofValue? he)
  · intro name v hv w hw
    apply hm name v w
    · exact hu.metadata.supplies (List.mem_reverse.1 (Assoc.mem_of_find? hv))
    · exact ht.metadata.supplies (List.mem_reverse.1 (Assoc.mem_of_find? hw))

end Declaration

namespace Registry

theorem sound_of_registerAll {r : Registry} {ds : List Declaration} (h : empty.registerAll ds = .ok r) : r.Sound := by
  rw [← callAll_of_registerAll h]
  exact sound_empty.callAll _

/-- Bulk settings come from some terms. -/
theorem exists_mem_of_bulk? {ts : List Terms} {s : Subscription} (hs : s ∈ (empty.adoptAll ts).subscriptions)
    {b : BulkSettings} (hb : s.bulk? = some b) : ∃ t ∈ ts, t.bulk? = some b := by
  rw [eq_adoptAll_of_mem hs, Subscription.bulk?_adoptAll] at hb
  obtain ⟨t, ht, htb⟩ := mem_of_latest? ((Option.or_none).symm.trans hb)
  exact ⟨t, (List.mem_filter.1 ht).1, htb⟩

/-- Declarations that are accepted one after another, and of which those of one topic concur, are accepted in every
order, and the manifest has the same entries then, perhaps in another order: for each topic the same entry, and so the
same text. -/
theorem registerAll_perm {ds ds' : List Declaration} {r : Registry} (h : empty.registerAll ds = .ok r)
    (hc : ∀ a ∈ ds, ∀ d ∈ ds, a.pubsub = d.pubsub → a.topic = d.topic → a.Concurs d)
    (hb : ∀ d ∈ ds, ∀ enabled m w, d.bulk = .settings enabled m w → ∃ x, enabled = .bool x) (hp : ds.Perm ds') :
    ∃ r' es es', empty.registerAll ds' = .ok r' ∧ r.entries = .ok es ∧ r'.entries = .ok es' ∧ es.Perm es' ∧
      (∀ e ∈ es, ∀ e' ∈ es', e.pubsub = e'.pubsub → e.topic = e'.topic → e = e' ∧ e.wire.write = e'.wire.write) ∧
      ((∃ bs, r.render = .ok bs) ↔ ∃ bs, r'.render = .ok bs) := by
  have hs := sound_of_registerAll h
  obtain ⟨ts, hts, ha, rfl⟩ := registerAll_eq_ok_iff.1 h
  obtain ⟨ts', hts', hpt⟩ := List.perm_comp_forall₂ hp.symm hts
  have hsame : ∀ u ∈ ts, ∀ t ∈ ts, u.SameSettings t := by
    intro u hu t ht
    obtain ⟨a, hma, hsa⟩ := exists_of_mem_right hts hu
    obtain ⟨d, hmd, hsd⟩ := exists_of_mem_right hts ht
    exact Declaration.sameSettings_of_says hsa hsd (hc a hma d hmd)
  -- Whether terms contradict each other does not depend on their order.
  have ha' : empty.Admits ts' := admits_empty_of_subset ha hpt.subset
  have hr' := registerAll_eq_ok_iff.2 ⟨ts', hts', ha', rfl⟩
  have hs' := sound_of_registerAll hr'
  have hal := alike_adoptAll ha hsame hpt.symm
  obtain ⟨es, he⟩ : ∃ es, (empty.adoptAll ts).entries = .ok es := by
    apply hs.entries_isOk_iff.2
    intro s hm b hsb
    obtain ⟨t, ht, htb⟩ := exists_mem_of_bulk? hm hsb
    obtain ⟨d, hd, hsays⟩ := exists_of_mem_right hts ht
    have hbulk := hsays.bulk
    rw [htb] at hbulk
    obtain ⟨x, hx⟩ := hb d hd _ _ _ hbulk
    rw [hx]
    trivial
  obtain ⟨es', he', hpe⟩ := hal.exists_entries hs he
  refine ⟨_, es, es', hr', he, he', hpe, ?_, hal.render_isOk_iff hs hs'⟩
  intro e hme e' hme' hpub htop
  have hn : (es.map fun e => TopicKey.mk e.pubsub e.topic).Nodup := by
    rw [hs.topics_entries he]
    exact hs.keys
  have hee : e = e' := List.inj_on_of_nodup_map hn hme (hpe.mem_iff.2 hme') (by rw [hpub, htop])
  rw [hee]
  exact ⟨rfl, rfl⟩

/-- A rule with metadata, another topic, and a path for the rest with the metadata of before and bulk settings. -/
def scattered : List Declaration :=
  [{ pubsub := .text (lit "pubsub"), topic := .text (lit "orders"), route := .text (lit "/big"),
     condition := .text (lit "size > 9"), priority := .int 2,
     metadata := .mapping [(.text (lit "b"), .text (lit "1"))] },
    { pubsub := .text (lit "pubsub"), topic := .text (lit "bills"), route := .text (lit "/bills") },
    { pubsub := .text (lit "pubsub"), topic := .text (lit "orders"), route := .text [],
      metadata := .mapping [(.text (lit "a"), .text (lit "2")), (.text (lit "b"), .text (lit "1"))],
      bulk := .settings (.bool true) none (some .zero) }]

theorem registerAll_perm_scattered :
    (∀ a ∈ scattered, ∀ d ∈ scattered, a.pubsub = d.pubsub → a.topic = d.topic → a.Concurs d) ∧
    (∀ d ∈ scattered, ∀ enabled m w, d.bulk = .settings enabled m w → ∃ x, enabled = .bool x) ∧
    ∃ r r' es es', empty.registerAll scattered = .ok r ∧ empty.registerAll scattered.reverse = .ok r' ∧
      r.entries = .ok es ∧ r'.entries = .ok es' ∧ es.Perm es' ∧
      (∀ e ∈ es, ∀ e' ∈ es', e.pubsub = e'.pubsub → e.topic = e'.topic → e = e' ∧ e.wire.write = e'.wire.write) ∧
      ((∃ bs, r.render = .ok bs) ↔ ∃ bs, r'.render = .ok bs) := by
  have hsupplies : ∀ d ∈ scattered, ∀ name v, d.Supplies name v →
      (name, v) ∈ [(lit "a", lit "2"), (lit "b", lit "1")] := by
    rintro d hd name v ⟨entries, he, hm⟩
    simp only [scattered, List.mem_cons, List.not_mem_nil, or_false] at hd
    rcases hd with rfl | rfl | rfl <;> cases he
    all_goals
      simp only [List.mem_cons, List.not_mem_nil, or_false, Prod.mk.injEq, Value.text.injEq] at hm ⊢
      simp [hm]
  have hbulk : ∀ d ∈ scattered, d.bulk = .none ∨ d.bulk = .settings (.bool true) none (some .zero) := by
    intro d hd
    simp only [scattered, List.mem_cons, List.not_mem_nil, or_false] at hd
    rcases hd with rfl | rfl | rfl
    · exact .inl rfl
    · exact .inl rfl
    · exact .inr rfl
  have hc : ∀ a ∈ scattered, ∀ d ∈ scattered, a.pubsub = d.pubsub → a.topic = d.topic → a.Concurs d := by
    intro a ha d hd _ _
    refine ⟨fun name v w hv hw => ?_, fun hna hnd => ?_⟩
    · have hn : (Assoc.keys [(lit "a", lit "2"), (lit "b", lit "1")]).Nodup := by decide
      have hfv := (Assoc.find?_eq_some_iff hn).2 (hsupplies a ha name v hv)
      have hfw := (Assoc.find?_eq_some_iff hn).2 (hsupplies d hd name w hw)
      exact Option.some.inj (hfv.symm.trans hfw)
    · rw [(hbulk a ha).resolve_left hna, (hbulk d hd).resolve_left hnd]
  have hb : ∀ d ∈ scattered, ∀ enabled m w, d.bulk = .settings enabled m w → ∃ x, enabled = .bool x := by
    intro d hd enabled m w he
    rcases hbulk d hd with h | h
    · cases h.symm.trans he
    · cases h.symm.trans he
      exact ⟨true, rfl⟩
  obtain ⟨r, h⟩ : ∃ r, empty.registerAll scattered = .ok r := ⟨_, rfl⟩
  obtain ⟨r', es, es', hr'⟩ := registerAll_perm h hc hb (List.reverse_perm _).symm
  exact ⟨hc, hb, r, r', es, es', h, hr'⟩

end Registry

end PubSub

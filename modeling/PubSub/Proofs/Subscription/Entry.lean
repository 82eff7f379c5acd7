import PubSub.Proofs.Manifest.RoundTrip
import PubSub.Proofs.Registry.Soundness
import PubSub.Proofs.Text.Order
import PubSub.Subscription.Entry
/-!
# The entry of what is declared

An entry is built unless `enabled` of the bulk settings stands for no truth value (`toEntry_eq_ok_iff`). The entry then
says what is declared, in the order of priorities and of names (`Sound.describes`), and can be sent.
-/
namespace PubSub

/-! ## Truth values -/

/-- A word for true or false, in any case of ASCII letters. -/
def Text.IsTruthWord (t : Text) : Prop :=
  t.map CodePoint.toLowerAscii ∈ Manifest.trueWords ++ Manifest.falseWords

/-- A truth value, a number equal to 0 or 1, or a word for true or false as a text or in UTF-8. -/
def Value.StandsForBool : Value → Prop
  | .bool _ => True
  | .int i => i = 0 ∨ i = 1
  | .float x => x.toInt? = some 0 ∨ x.toInt? = some 1
  | .text t => t.IsTruthWord
  | .bytes bs => ∃ t, Text.decodeUtf8 bs = .ok t ∧ t.IsTruthWord
  | _ => False

namespace Manifest

theorem boolOfText_isOk_iff {t : Text} : (∃ b, boolOfText t = .ok b) ↔ t.IsTruthWord := by
  unfold boolOfText Text.IsTruthWord
  simp only [List.any_eq_true, decide_eq_true_eq, exists_eq_right, List.mem_append]
  by_cases ht : t.map CodePoint.toLowerAscii ∈ trueWords
  · simp [ht]
  · by_cases hf : t.map CodePoint.toLowerAscii ∈ falseWords
    · simp [ht, hf]
    · simp [ht, hf, Checked.fail]

theorem boolOfInteger_isOk_iff {i : Int} : (∃ b, boolOfInteger i = .ok b) ↔ i = 0 ∨ i = 1 := by
  unfold boolOfInteger
  by_cases h₀ : i = 0
  · simp [h₀]
  · by_cases h₁ : i = 1
    · simp [h₁]
    · simp [h₀, h₁, Checked.fail]

/-- Words for truth values are ASCII, so UTF-8 carries them. -/
theorem encodable_of_isTruthWord {t : Text} (h : t.IsTruthWord) : Text.Encodable t := by
  have hw : ∀ w ∈ trueWords ++ falseWords, ∀ c ∈ w, (c : Nat) < 0x80 := by decide
  intro c hc
  have hl := hw _ h _ (List.mem_map_of_mem hc)
  have hle : c ≤ CodePoint.toLowerAscii c := by
    unfold CodePoint.toLowerAscii
    split
    · exact Nat.le_add_right c 0x20
    · exact Nat.le_refl c
  have hlt := Nat.lt_of_le_of_lt hle hl
  refine ⟨Nat.lt_trans hlt (by decide), fun hs => ?_⟩
  exact absurd (Nat.lt_of_le_of_lt hs.1 hlt) (by decide)

/-- The settings that are accepted for `enabled` when an entry is built. -/
theorem readBool_isOk_iff {v : Value} : (∃ b, readBool v = .ok b) ↔ v.StandsForBool := by
  cases v with
  | bool b => exact ⟨fun _ => trivial, fun _ => ⟨b, rfl⟩⟩
  | int i =>
    rw [Value.StandsForBool, readBool]
    split
    · exact boolOfInteger_isOk_iff
    · next hw =>
      refine ⟨nofun, fun h => absurd ?_ hw⟩
      rcases h with rfl | rfl <;> decide
  | float x =>
    -- A number is read as the integer that it is equal to; zero and one fit a machine word.
    rw [Value.StandsForBool, readBool]
    constructor
    · rintro ⟨b, h⟩
      split at h
      · next i hi =>
        have hx := (integerOfNumber_eq_ok_iff.1 hi).1
        rcases boolOfInteger_isOk_iff.1 ⟨b, h⟩ with rfl | rfl
        · exact .inl hx
        · exact .inr hx
      · cases h
    · rintro (h | h)
      · rw [integerOfNumber_eq_ok_iff.2 ⟨h, by decide⟩]
        exact ⟨false, rfl⟩
      · rw [integerOfNumber_eq_ok_iff.2 ⟨h, by decide⟩]
        exact ⟨true, rfl⟩
  | text t =>
    rw [Value.StandsForBool, readBool]
    by_cases he : Text.Encodable t
    · rw [if_pos he]
      exact boolOfText_isOk_iff
    · rw [if_neg he]
      exact ⟨nofun, fun h => absurd (encodable_of_isTruthWord h) he⟩
  | bytes bs =>
    simp only [Value.StandsForBool, readBool, ← boolOfText_isOk_iff]
    cases Text.decodeUtf8 bs with
    | ok t => simp
    | error f => simp [Checked.fail]
  | _ => exact ⟨nofun, nofun⟩

end Manifest

/-! ## Building -/

theorem RoutingRule.toRule_eq (r : RoutingRule) : r.toRule = .ok ⟨r.condition, r.path⟩ := rfl

namespace BulkSettings

/-- The bounds are kept, and whether delivery is in batches is what `enabled` stands for. -/
theorem toBulk_eq_ok_iff {b : BulkSettings} {w : Manifest.Bulk} :
    b.toBulk = .ok w ↔ Manifest.readBool b.enabled = .ok w.enabled ∧
      w.maxMessages? = b.maxMessages? ∧ w.maxAwaitMs? = b.maxAwaitMs? := by
  unfold toBulk Manifest.validate
  rw [mapError_eq_ok_iff, Manifest.readBulk_ofFields, map_eq_ok_iff]
  simp only [Manifest.Checked.under_eq_ok_iff]
  constructor
  · rintro ⟨e, he, rfl⟩
    exact ⟨he, rfl, rfl⟩
  · rintro ⟨he, hm, hw⟩
    obtain ⟨_, _, _⟩ := w
    cases hm
    cases hw
    exact ⟨_, he, rfl⟩

theorem toBulk_isOk_iff {b : BulkSettings} : (∃ w, b.toBulk = .ok w) ↔ b.enabled.StandsForBool := by
  rw [← Manifest.readBool_isOk_iff]
  simp only [toBulk_eq_ok_iff]
  constructor
  · rintro ⟨w, he, -⟩
    exact ⟨_, he⟩
  · rintro ⟨e, he⟩
    exact ⟨⟨e, _, _⟩, he, rfl, rfl⟩

end BulkSettings

namespace Subscription

/-- The rules as an entry lists them. -/
def listedRules (s : Subscription) : List Manifest.Rule := s.orderedRules.map fun r => ⟨r.condition, r.path⟩

/-- The entry of what is declared, with some bulk settings. -/
def entryWith (s : Subscription) (bulk? : Option Manifest.Bulk) : Manifest.Entry where
  pubsub := s.key.pubsub
  topic := s.key.topic
  route? := s.route?
  routes? := if s.IsRouted then some ⟨s.listedRules, s.defaultPath?⟩ else none
  deadLetter? := s.deadLetter?
  metadata := s.orderedMetadata
  bulk? := bulk?

theorem routes?_eq (s : Subscription) :
    s.routes? = .ok (if s.IsRouted then some ⟨s.listedRules, s.defaultPath?⟩ else none) := by
  unfold routes?
  by_cases h : s.IsRouted
  · have hr : s.orderedRules.mapM RoutingRule.toRule = .ok s.listedRules := by
      rw [mapM_eq_ok_iff, listedRules, List.forall₂_map_right_iff, List.forall₂_same]
      exact fun r _ => r.toRule_eq
    have ht := Manifest.readRoutes_ofFields ⟨s.listedRules, s.defaultPath?⟩
    rw [if_pos h, if_pos h]
    simp only [bind_eq_ok_iff, Manifest.validate, mapError_eq_ok_iff, pure_eq_ok_iff]
    exact ⟨_, hr, _, ht, rfl⟩
  · rw [if_neg h, if_neg h]
    rfl

theorem optionMapM_eq_ok_iff {ε α β : Type} {f : α → Except ε β} {a? : Option α} {b? : Option β} :
    a?.mapM f = .ok b? ↔ Option.Rel (fun a b => f a = .ok b) a? b? := by
  cases a? with
  | none =>
    rw [Option.mapM_none, pure_eq_ok_iff]
    constructor
    · rintro rfl
      exact .none
    · rintro ⟨⟩
      rfl
  | some a =>
    refine (map_eq_ok_iff (x := f a)).trans ?_
    constructor
    · rintro ⟨b, hb, rfl⟩
      exact .some hb
    · rintro (hb | _)
      exact ⟨_, hb, rfl⟩

theorem not_both_routes (s : Subscription) (bulk? : Option Manifest.Bulk) :
    ¬ ((s.entryWith bulk?).route?.isSome ∧ (s.entryWith bulk?).routes?.isSome) := by
  by_cases h : s.IsRouted <;> simp [entryWith, route?, h]

theorem nodup_keys_orderedMetadata {s : Subscription} (h : (Assoc.keys s.metadata).Nodup) :
    (Assoc.keys s.orderedMetadata).Nodup :=
  ((List.mergeSort_perm _ _).map Prod.fst).nodup_iff.2 h

theorem toEntry_eq_ok_iff {s : Subscription} (h : (Assoc.keys s.metadata).Nodup) {e : Manifest.Entry} :
    s.toEntry = .ok e ↔
      ∃ bulk?, Option.Rel (fun b w => b.toBulk = .ok w) s.bulk? bulk? ∧ e = s.entryWith bulk? := by
  unfold toEntry
  simp only [bind_eq_ok_iff, routes?_eq, optionMapM_eq_ok_iff, Manifest.validate, mapError_eq_ok_iff, Except.ok.injEq,
    exists_eq_left']
  refine exists_congr fun bulk? => and_congr_right fun _ => ?_
  -- Reading an entry from its fields could change only the metadata, and their names are distinct.
  have hf : Manifest.readEntry (.ofFields (s.entryWith bulk?).fieldValues) =
      Manifest.checkDelivery (s.entryWith bulk?) :=
    (Manifest.readEntry_ofFields _).trans
      (congrArg (fun m => Manifest.checkDelivery { s.entryWith bulk? with metadata := m })
        (Assoc.ofPairs_of_nodup (nodup_keys_orderedMetadata h)))
  have he : e = s.entryWith bulk? ↔ Manifest.checkDelivery (s.entryWith bulk?) = .ok e := by
    rw [Manifest.checkDelivery_eq_ok_iff, and_iff_right (s.not_both_routes bulk?)]
  rw [he, ← hf]
  rfl

theorem toEntry_isOk_iff {s : Subscription} (h : (Assoc.keys s.metadata).Nodup) :
    (∃ e, s.toEntry = .ok e) ↔ ∀ b ∈ s.bulk?, b.enabled.StandsForBool := by
  simp only [toEntry_eq_ok_iff h]
  cases s.bulk? with
  | none => exact ⟨fun _ => nofun, fun _ => ⟨_, none, .none, rfl⟩⟩
  | some b =>
    constructor
    · rintro ⟨_, _, hb | _, -⟩ _ ⟨⟩
      exact BulkSettings.toBulk_isOk_iff.1 ⟨_, hb⟩
    · intro hb
      obtain ⟨w, hw⟩ := BulkSettings.toBulk_isOk_iff.2 (hb b rfl)
      exact ⟨_, some w, .some hw, rfl⟩

/-! ## What the entry says -/

/-- Bulk settings of an entry say what is declared, where `enabled` is a truth value. -/
def SameBulk (b : BulkSettings) (w : Manifest.Bulk) : Prop :=
  b.enabled = .bool w.enabled ∧ w.maxMessages? = b.maxMessages? ∧ w.maxAwaitMs? = b.maxAwaitMs?

/-- An entry says of a topic what is declared for it. -/
structure Describes (s : Subscription) (e : Manifest.Entry) : Prop where
  /-- Without rules events go to the default path, which is then set. -/
  flat : s.rules = [] → e.route? = s.defaultPath? ∧ e.route?.isSome ∧ e.routes? = none
  /-- With rules events go by a table that has each rule once, in strictly ascending priority. -/
  routed : s.rules ≠ [] → e.route? = none ∧ ∃ rules : List RoutingRule,
    e.routes? = some ⟨rules.map fun r => ⟨r.condition, r.path⟩, s.defaultPath?⟩ ∧
      rules.Perm s.rules ∧ rules.Pairwise fun a b => a.priority < b.priority
  deadLetter : e.deadLetter? = s.deadLetter?
  bulk : Option.Rel SameBulk s.bulk? e.bulk?
  /-- Each name once, in strictly ascending order. -/
  metadata : e.metadata.Perm s.metadata ∧ e.metadata.Pairwise fun a b => Text.Before a.1 b.1

theorem sameBulk_of_toBulk {b? : Option BulkSettings} {w? : Option Manifest.Bulk}
    (h : Option.Rel (fun b w => b.toBulk = .ok w) b? w?) (he : ∀ b ∈ b?, ∃ x, b.enabled = .bool x) :
    Option.Rel SameBulk b? w? := by
  cases h with
  | none => exact .none
  | some hw =>
    obtain ⟨x, hx⟩ := he _ rfl
    obtain ⟨hr, hm⟩ := BulkSettings.toBulk_eq_ok_iff.1 hw
    rw [hx] at hr
    exact .some ⟨hx.trans (congrArg Value.bool (Except.ok.inj hr)), hm⟩

theorem pairwise_orderedRules {s : Subscription} (h : (s.rules.map RoutingRule.priority).Nodup) :
    s.orderedRules.Pairwise fun a b => a.priority < b.priority := by
  have htrans : ∀ a b c : RoutingRule, decide (a.priority ≤ b.priority) → decide (b.priority ≤ c.priority) →
      decide (a.priority ≤ c.priority) := by
    intro a b c hab hbc
    exact decide_eq_true (Int.le_trans (of_decide_eq_true hab) (of_decide_eq_true hbc))
  have htotal : ∀ a b : RoutingRule, decide (a.priority ≤ b.priority) || decide (b.priority ≤ a.priority) := by
    intro a b
    simpa using Int.le_total a.priority b.priority
  have hs := List.pairwise_mergeSort htrans htotal s.rules
  have hn : (s.orderedRules.map RoutingRule.priority).Nodup := ((List.mergeSort_perm _ _).map _).nodup_iff.2 h
  -- Ascending order is strict where no two priorities are equal.
  refine hs.imp₂ (fun a b hle hne => ?_) (List.pairwise_map.1 hn)
  exact Int.lt_iff_le_and_ne.2 ⟨of_decide_eq_true hle, hne⟩

/-- If `enabled` is a truth value, the entry says what is declared. -/
theorem Sound.describes {s : Subscription} (h : s.Sound) {bulk? : Option Manifest.Bulk}
    (hb : Option.Rel (fun b w => b.toBulk = .ok w) s.bulk? bulk?) (he : ∀ b ∈ s.bulk?, ∃ x, b.enabled = .bool x) :
    s.Describes (s.entryWith bulk?) := by
  refine ⟨?_, ?_, rfl, sameBulk_of_toBulk hb he, List.mergeSort_perm _ _, Text.pairwise_before_mergeSort h.names⟩
  · intro hr
    have hn : ¬ s.IsRouted := not_not_intro hr
    have hp : (s.entryWith bulk?).route? = s.defaultPath? := if_neg hn
    rw [hp]
    exact ⟨rfl, Option.isSome_iff_ne_none.2 (h.delivered.resolve_left hn), if_neg hn⟩
  · intro hr
    have hn : s.IsRouted := hr
    exact ⟨if_pos hn, s.orderedRules, if_pos hn, List.mergeSort_perm _ _, pairwise_orderedRules h.priorities⟩

/-! ## The entry can be sent -/

theorem Clean.admitted {s : Subscription} (h : s.Clean) (bulk? : Option Manifest.Bulk) :
    (s.entryWith bulk?).Admitted :=
  Manifest.Entry.admitted_iff.2 ⟨s.not_both_routes bulk?, nodup_keys_orderedMetadata h.names⟩

theorem Clean.encodable {s : Subscription} (h : s.Clean) (bulk? : Option Manifest.Bulk) :
    ∀ t ∈ (s.entryWith bulk?).texts, Text.Encodable t := by
  have hd : ∀ t ∈ s.defaultPath?.toList, Text.Encodable t := by
    intro t ht
    exact h.default t (Option.mem_toList.1 ht)
  have hl : ∀ t ∈ s.deadLetter?.toList, Text.Encodable t := by
    intro t ht
    exact h.deadLetter t (Option.mem_toList.1 ht)
  have hm : ∀ t ∈ s.orderedMetadata.flatMap fun m => [m.1, m.2], Text.Encodable t := by
    intro t ht
    obtain ⟨m, hm, ht⟩ := List.mem_flatMap.1 ht
    obtain ⟨h₁, h₂⟩ := h.metadata m ((List.mergeSort_perm _ _).mem_iff.1 hm)
    rcases List.mem_pair.1 ht with rfl | rfl
    · exact h₁
    · exact h₂
  have hr : ∀ t ∈ s.listedRules.flatMap (fun x => [x.condition, x.path]), Text.Encodable t := by
    intro t ht
    obtain ⟨x, hx, ht⟩ := List.mem_flatMap.1 ht
    obtain ⟨r, hr, rfl⟩ := List.mem_map.1 hx
    have hs := h.rules r ((List.mergeSort_perm _ _).mem_iff.1 hr)
    rcases List.mem_pair.1 ht with rfl | rfl
    · exact hs.condition
    · exact hs.path
  intro t ht
  simp only [Manifest.Entry.texts, List.mem_append] at ht
  rcases ht with (((ht | ht) | ht) | ht) | ht
  · rcases List.mem_pair.1 ht with rfl | rfl
    · exact h.pubsub.1
    · exact h.topic.1
  · by_cases hi : s.IsRouted
    · simp [entryWith, route?, hi] at ht
    · rw [show (s.entryWith bulk?).route? = s.defaultPath? from if_neg hi] at ht
      exact hd t ht
  · by_cases hi : s.IsRouted
    · rw [show (s.entryWith bulk?).routes? = some ⟨s.listedRules, s.defaultPath?⟩ from if_pos hi] at ht
      simp only [Option.toList_some, List.flatMap_singleton, Manifest.Routes.texts, List.mem_append] at ht
      rcases ht with ht | ht
      · exact hr t ht
      · exact hd t ht
    · rw [show (s.entryWith bulk?).routes? = none from if_neg hi] at ht
      cases ht
  · exact hl t ht
  · exact hm t ht

end Subscription

end PubSub

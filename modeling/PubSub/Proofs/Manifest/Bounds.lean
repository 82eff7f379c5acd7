import PubSub.Proofs.Manifest.Refusal
/-!
# What every entry keeps to

An entry that is read goes by one route or by a routing table, not by both, and its bulk settings are in range
(`entries_inBounds`). Numbers may be spelled in many ways and stand under two names, and are compared with their bounds
only after they were read. A record may also be handed over as it is; it has its bounds in itself, and its ways of
delivery are looked at once more.
-/
namespace PubSub

open Manifest

/-- The value stands for the integer, in any of the spellings of one. -/
inductive Value.Spells : Value → Int → Prop
  | int (i : Int) : Spells (.int i) i
  | bool (b : Bool) : Spells (.bool b) (if b then 1 else 0)
  | float {x : Binary64} {i : Int} (h : x.toInt? = some i)
    (hr : -0x8000000000000000 < i ∧ i < 0x8000000000000000) : Spells (.float x) i
  | text {t : Text} {i : Int} (he : Text.Encodable t) (h : IntegerText.parse t = .ok i) : Spells (.text t) i
  | bytes {bs : Bytes} {t : Text} {i : Int} (hd : Text.decodeUtf8 bs = .ok t) (h : IntegerText.parse t = .ok i) :
    Spells (.bytes bs) i

namespace Manifest

/-- The value of the first of some names that a mapping has. -/
def firstValue? (names : List Text) (entries : List (Value × Value)) : Option Value :=
  names.findSome? fun name => Assoc.find? (Value.text name) entries

/-- What a mapping says about a number that may be left out: nothing, or a number in range. -/
inductive Supplies (names : List Text) (least : Int) (entries : List (Value × Value)) : Option Int → Prop
  | absent (h : firstValue? names entries = none) : Supplies names least entries none
  | unset (h : firstValue? names entries = some .none) : Supplies names least entries none
  | number {v : Value} {i : Int} (h : firstValue? names entries = some v) (hs : v.Spells i) (hl : least ≤ i) :
    Supplies names least entries (some i)

/-- A mapping gives a number that is below its bound, in whatever spelling. -/
def FallsBelow (names : List Text) (least : Int) (entries : List (Value × Value)) : Prop :=
  ∃ v i, firstValue? names entries = some v ∧ v.Spells i ∧ i < least

/-- The names of the bound on messages, the wire name first. -/
def Bulk.messagesNames : List Text := [lit "maxMessagesCount", lit "max_messages_count"]

/-- The names of the bound on the time, the wire name first. -/
def Bulk.awaitNames : List Text := [lit "maxAwaitDurationMs", lit "max_await_duration_ms"]

/-- The settings are handed over as they are, or their numbers are those of a mapping. -/
def Bulk.ComesFrom (b : Bulk) (v : Value) : Prop :=
  v = .bulk b ∨ ∃ entries, v.entries? = some entries ∧
    Supplies messagesNames 1 entries (b.maxMessages?.map Subtype.val) ∧
    Supplies awaitNames 0 entries (b.maxAwaitMs?.map Subtype.val)

/-- At least one message, and no negative time. -/
structure Bulk.InBounds (b : Bulk) : Prop where
  maxMessages : ∀ n ∈ b.maxMessages?, 1 ≤ n.val
  maxAwait : ∀ n ∈ b.maxAwaitMs?, 0 ≤ n.val

/-- Delivery goes one way, and bulk settings are in range. -/
structure Entry.InBounds (e : Entry) : Prop where
  oneWay : ¬ (e.route?.isSome ∧ e.routes?.isSome)
  bulk : ∀ b ∈ e.bulk?, b.InBounds

/-! ## Numbers -/

theorem integerOfText_eq_ok_iff {t : Text} {i : Int} : integerOfText t = .ok i ↔ IntegerText.parse t = .ok i := by
  unfold integerOfText
  cases IntegerText.parse t with
  | ok j => simp only [Except.ok.injEq]
  | error fault => exact ⟨nofun, nofun⟩

theorem readInteger_eq_ok_iff {v : Value} {i : Int} : readInteger v = .ok i ↔ v.Spells i := by
  constructor
  · intro h
    cases v with
    | int j =>
      cases h
      exact .int i
    | bool b =>
      cases h
      exact .bool b
    | float x =>
      rw [readInteger] at h
      split at h
      · next hx =>
        cases h
        obtain ⟨hi, hr⟩ := integerOfNumber_eq_ok_iff.1 hx
        exact .float hi hr
      · cases h
    | text t =>
      rw [readInteger] at h
      split at h
      · next he => exact .text he (integerOfText_eq_ok_iff.1 h)
      · cases h
    | bytes bs =>
      rw [readInteger] at h
      split at h
      · next hd => exact .bytes hd (integerOfText_eq_ok_iff.1 h)
      · cases h
    | _ => cases h
  · intro h
    cases h with
    | int => rfl
    | bool => rfl
    | float h hr => simp only [readInteger, integerOfNumber_eq_ok_iff.2 ⟨h, hr⟩]
    | text he h => rw [readInteger, if_pos he, integerOfText_eq_ok_iff.2 h]
    | bytes hd h => simp only [readInteger, hd, integerOfText_eq_ok_iff.2 h]

theorem eq_of_spells {v : Value} {i j : Int} (hi : v.Spells i) (hj : v.Spells j) : i = j :=
  Except.ok.inj ((readInteger_eq_ok_iff.2 hi).symm.trans (readInteger_eq_ok_iff.2 hj))

/-- However it is spelled, a number is compared after it was read. -/
theorem readAtLeast_eq_ok_iff {least : Int} {v : Value} {i : AtLeast least} :
    readAtLeast least v = .ok i ↔ v.Spells i := by
  rw [← readInteger_eq_ok_iff, readAtLeast]
  cases readInteger v with
  | error failures => exact ⟨nofun, nofun⟩
  | ok j =>
    dsimp only
    split
    · simp only [Except.ok.injEq, Subtype.ext_iff]
    · next hj =>
      refine ⟨nofun, fun h => ?_⟩
      cases h
      exact absurd i.2 hj

/-! ## Names -/

theorem beq_text_iff {k : Value} {t : Text} : (k == Value.text t) = true ↔ k = .text t := by
  cases k with
  | text s => exact decide_eq_true_iff.trans (iff_of_eq (Value.text.injEq s t).symm)
  | float x =>
    refine iff_of_false ?_ (by simp)
    change ¬ Value.same (.float x) (.text t) = true
    simp only [Value.same, Value.integer?]
    cases x.toInt? <;> exact Bool.false_ne_true
  | _ => exact iff_of_false Bool.false_ne_true (by simp)

/-- Only texts are names, and a name is looked up as any key. -/
theorem firstNamed?_eq (names : List Text) (entries : List (Value × Value)) :
    firstNamed? names entries = names.findSome? fun name =>
      (Assoc.find? (Value.text name) entries).map (name, ·) := by
  unfold firstNamed?
  congr 1
  funext name
  rw [Assoc.find?_eq_findSome?, List.map_findSome?]
  congr 1
  funext ⟨k, v⟩
  by_cases hk : k = .text name
  · subst hk
    rw [Function.comp, if_pos (beq_text_iff.2 rfl)]
    exact if_pos rfl
  · rw [Function.comp, if_neg (mt beq_text_iff.1 hk)]
    cases k with
    | text t => exact if_neg fun h => hk (congrArg Value.text h)
    | _ => rfl

theorem firstValue?_eq (names : List Text) (entries : List (Value × Value)) :
    firstValue? names entries = (firstNamed? names entries).map Prod.snd := by
  rw [firstNamed?_eq, List.map_findSome?, firstValue?]
  congr 1
  funext name
  rw [Function.comp, Option.map_map]
  exact Option.map_id'.symm

/-- A field that may be left out is read from the first of its names, and `none` under that name sets nothing. -/
theorem of_readDefaulted {α : Type} {names : List Text} {read : Value → Checked α} {entries : List (Value × Value)}
    {a? : Option α} (h : readDefaulted names none (readOptional read) entries = .ok a?) :
    a? = none ∧ (firstValue? names entries = none ∨ firstValue? names entries = some .none) ∨
      ∃ v a, firstValue? names entries = some v ∧ read v = .ok a ∧ a? = some a := by
  rw [firstValue?_eq]
  unfold readDefaulted at h
  split at h
  · next name v hn =>
    rw [hn]
    have h := Checked.under_eq_ok_iff.1 h
    unfold readOptional at h
    split at h
    · cases h
      exact .inl ⟨rfl, .inr rfl⟩
    · obtain ⟨a, ha, rfl⟩ := map_eq_ok_iff.1 h
      exact .inr ⟨_, a, rfl, ha, rfl⟩
  · next hn =>
    cases h
    rw [hn]
    exact .inl ⟨rfl, .inl rfl⟩

/-! ## Bulk settings -/

theorem supplies_of_read {names : List Text} {least : Int} {entries : List (Value × Value)}
    {i? : Option (AtLeast least)}
    (h : readDefaulted names none (readOptional (readAtLeast least)) entries = .ok i?) :
    Supplies names least entries (i?.map Subtype.val) := by
  rcases of_readDefaulted h with ⟨rfl, hn | hn⟩ | ⟨v, i, hn, hv, rfl⟩
  · exact .absent hn
  · exact .unset hn
  · exact .number hn (readAtLeast_eq_ok_iff.1 hv) i.2

/-- What a mapping says about a number is one thing, so a number below the bound is not passed over. -/
theorem Supplies.not_fallsBelow {names : List Text} {least : Int} {entries : List (Value × Value)} {i? : Option Int}
    (h : Supplies names least entries i?) : ¬ FallsBelow names least entries := by
  rintro ⟨v, i, hv, hi, hl⟩
  cases h with
  | absent hn => cases hv.symm.trans hn
  | unset hn =>
    cases hv.symm.trans hn
    cases hi
  | number hn hs hle =>
    cases hv.symm.trans hn
    exact Int.not_le.2 hl (eq_of_spells hs hi ▸ hle)

theorem supplies_of_readBulk {v : Value} {entries : List (Value × Value)} (hv : v.entries? = some entries) {b : Bulk}
    (h : readBulk v = .ok b) : Supplies Bulk.messagesNames 1 entries (b.maxMessages?.map Subtype.val) ∧
      Supplies Bulk.awaitNames 0 entries (b.maxAwaitMs?.map Subtype.val) := by
  have hr : readBulk (.mapping entries) = .ok b := by
    cases v with
    | mapping _ | view _ =>
      cases hv
      exact h
    | _ => cases hv
  obtain ⟨-, hm, hw⟩ := readBulk_eq_ok_iff.1 hr
  exact ⟨supplies_of_read hm, supplies_of_read hw⟩

theorem Bulk.comesFrom_of_read {v : Value} {b : Bulk} (h : readBulk v = .ok b) : b.ComesFrom v := by
  cases v with
  | bulk b' =>
    cases h
    exact .inl rfl
  | mapping entries => exact .inr ⟨entries, rfl, supplies_of_readBulk rfl h⟩
  | view entries => exact .inr ⟨entries, rfl, supplies_of_readBulk rfl h⟩
  | _ => cases h

theorem readBulk_ne_ok_of_fallsBelow {v : Value} {entries : List (Value × Value)} (hv : v.entries? = some entries)
    (h : FallsBelow Bulk.messagesNames 1 entries ∨ FallsBelow Bulk.awaitNames 0 entries) (b : Bulk) :
    readBulk v ≠ .ok b := by
  intro hb
  obtain ⟨hm, hw⟩ := supplies_of_readBulk hv hb
  exact h.elim hm.not_fallsBelow hw.not_fallsBelow

theorem Bulk.inBounds (b : Bulk) : b.InBounds := ⟨fun n _ => n.2, fun n _ => n.2⟩

/-! ## Entries -/

/-- The bulk settings of an entry that is read from a mapping are read from one of its values. -/
theorem Entry.of_read {v : Value} {entries : List (Value × Value)} (hv : v.entries? = some entries) {e : Entry}
    (h : readEntry v = .ok e) : ¬ (e.route?.isSome ∧ e.routes?.isSome) ∧ ∀ b ∈ e.bulk?, ∃ w,
      firstValue? [lit "bulkSubscribe", lit "bulk_subscribe"] entries = some w ∧ readBulk w = .ok b := by
  have hr : readEntry (.mapping entries) = .ok e := by
    cases v with
    | mapping _ =>
      cases hv
      exact h
    | view _ =>
      cases hv
      exact h
    | _ => cases hv
  obtain ⟨hd, -, -, -, -, -, -, hbulk⟩ := readEntry_eq_ok_iff.1 hr
  refine ⟨hd, fun b hb => ?_⟩
  rcases of_readDefaulted hbulk with ⟨hn, -⟩ | ⟨w, b', hn, hw, hs⟩
  · rw [hn] at hb
    cases hb
  · rw [hs] at hb
    cases hb
    exact ⟨w, hn, hw⟩

/-- Read from a mapping or handed over as it is, an entry has gone through the check of its delivery. -/
theorem inBounds_of_readEntry {v : Value} {e : Entry} (h : readEntry v = .ok e) : e.InBounds := by
  refine ⟨?_, fun b _ => b.inBounds⟩
  cases v with
  | entry e' =>
    obtain ⟨hd, rfl⟩ := checkDelivery_eq_ok_iff.1 h
    exact hd
  | mapping entries => exact (Entry.of_read rfl h).1
  | view entries => exact (Entry.of_read rfl h).1
  | _ => cases h

/-! ## Documents and values -/

/-- Whatever an entry is read from, it goes one way and its bulk settings are in range, and so it is with the entries of
a manifest. From a mapping the bulk settings come under the first of their names, with the numbers that stand there
under the first of theirs, and a number that is below its bound there is refused, however it is spelled. -/
theorem entries_inBounds :
    (∀ (v : Value) (e : Entry), readEntry v = .ok e → e.InBounds) ∧
    (∀ (v : Value) (es : List Entry), decode v = .ok es → ∀ e ∈ es, e.InBounds) ∧
    (∀ (v : Value) (entries : List (Value × Value)) (e : Entry), v.entries? = some entries → readEntry v = .ok e →
      ∀ b ∈ e.bulk?, ∃ w, firstValue? [lit "bulkSubscribe", lit "bulk_subscribe"] entries = some w ∧
        b.ComesFrom w) ∧
    ∀ (v : Value) (entries : List (Value × Value)), v.entries? = some entries →
      FallsBelow Bulk.messagesNames 1 entries ∨ FallsBelow Bulk.awaitNames 0 entries → ∀ b, readBulk v ≠ .ok b := by
  refine ⟨fun v e h => inBounds_of_readEntry h, fun v es h e he => ?_, fun v entries e hv h b hb => ?_,
    fun v entries hv h => readBulk_ne_ok_of_fallsBelow hv h⟩
  · obtain ⟨js, -, hes⟩ := decode_eq_ok_iff_elements.1 h
    obtain ⟨j, -, -, hr⟩ := exists_of_mem_right hes he
    exact inBounds_of_readEntry hr
  · obtain ⟨w, hn, hw⟩ := (Entry.of_read hv h).2 b hb
    exact ⟨w, hn, Bulk.comesFrom_of_read hw⟩

/-- Members of bulk settings, with a number out of range under a plain name that the wire name comes before. -/
def loosely : List (Value × Value) :=
  [(.text (lit "max_messages_count"), .int 0), (.text (lit "maxMessagesCount"), .text (lit " +1_0 ")),
    (.text (lit "maxAwaitDurationMs"), .bool false)]

/-- The members of an entry with some bulk settings. -/
def withBulk (bulk : Value) : List (Value × Value) :=
  [(.text (lit "pubsub_name"), .text (lit "pubsub")), (.text (lit "topic"), .bytes [0x6F]),
    (.text (lit "bulk_subscribe"), bulk)]

/-- At most ten messages at once, and no waiting for them. -/
def tenMessages : Bulk := { maxMessages? := some ⟨10, by decide⟩, maxAwaitMs? := some .zero }

/-- The entry that is read with the settings of `loosely`. -/
def tenAtOnce : Entry := { pubsub := lit "pubsub", topic := lit "o", bulk? := some tenMessages }

/-- Members of bulk settings with a number that is out of range only once it is read. -/
def paddedZero : List (Value × Value) := [(.text (lit "max_messages_count"), .text (lit " -0_0 "))]

theorem fallsBelow_paddedZero : FallsBelow Bulk.messagesNames 1 paddedZero :=
  ⟨.text (lit " -0_0 "), 0, rfl, .text (by decide) rfl, by decide⟩

theorem entries_inBounds_loosely :
    (readEntry (.mapping (withBulk (.bulk tenMessages))) = .ok tenAtOnce ∧ tenAtOnce.InBounds) ∧
    (decode (.text (oneTopic (lit "größe"))) = .ok [{ pubsub := lit "größe", topic := lit "orders" }] ∧
      ∀ e ∈ [({ pubsub := lit "größe", topic := lit "orders" } : Entry)], e.InBounds) ∧
    (readEntry (.mapping (withBulk (.mapping loosely))) = .ok tenAtOnce ∧
      ∀ b ∈ tenAtOnce.bulk?, ∃ w, firstValue? [lit "bulkSubscribe", lit "bulk_subscribe"]
        (withBulk (.mapping loosely)) = some w ∧ b.ComesFrom w) ∧
    FallsBelow Bulk.messagesNames 1 paddedZero ∧ ∀ b, readBulk (.view paddedZero) ≠ .ok b := by
  have hd := decode_oneTopic fun start rest => Json.scanString_escape start (lit "größe") rest
  have ⟨hread, hdecode, hfrom, hbelow⟩ := entries_inBounds
  exact ⟨⟨rfl, hread (.mapping (withBulk (.bulk tenMessages))) _ rfl⟩, ⟨hd, hdecode _ _ hd⟩,
    ⟨rfl, hfrom (.mapping _) _ _ rfl rfl⟩, fallsBelow_paddedZero, hbelow (.view _) _ rfl (.inl fallsBelow_paddedZero)⟩

end Manifest

end PubSub

import PubSub.Manifest.Reading
import PubSub.Proofs.Assoc
import PubSub.Proofs.Outcome
/-!
# Records read from their fields

What the readers of fields and records give for a value in which every field stands under one of its names. The members
of a JSON object and fields handed over by name are both such values.
-/
namespace PubSub.Manifest

/-! ## Checks that all pass -/

theorem Checked.all_ok {α : Type} (l : List α) : Checked.all (l.map .ok) = .ok l := by
  induction l with
  | nil => rfl
  | cons a l ih =>
    rw [List.map_cons, Checked.all, ih]
    rfl

theorem readItems_ok {α : Type} {read : Value → Checked α} {toValue : α → Value} {l : List α}
    (h : ∀ a ∈ l, read (toValue a) = .ok a) : readItems read (l.map toValue) = .ok l := by
  have hl : (l.map toValue).mapIdx (fun i v => (read v).under (.index i)) = l.map .ok := by
    refine List.ext_getElem (by simp) fun i h₁ h₂ => ?_
    rw [List.getElem_mapIdx, List.getElem_map, List.getElem_map, h _ (List.getElem_mem _)]
    rfl
  rw [readItems, hl, Checked.all_ok]

theorem Checked.under_eq_ok_iff {α : Type} {step : Step} {c : Checked α} {a : α} :
    c.under step = .ok a ↔ c = .ok a := by
  cases c with
  | ok b => exact Iff.rfl
  | error f => exact ⟨nofun, nofun⟩

theorem Checked.both_eq_ok_iff {α β : Type} {c : Checked α} {d : Checked β} {a : α} {b : β} :
    Checked.both c d = .ok (a, b) ↔ c = .ok a ∧ d = .ok b := by
  cases c <;> cases d <;> simp [Checked.both]

/-! ## Numbers -/

theorem isFinite_of_toInt? {x : Binary64} {i : Int} (h : x.toInt? = some i) : x.IsFinite := by
  unfold Binary64.toInt? at h
  split at h
  · cases h
  · split at h
    · assumption
    · cases h

theorem integerOfNumber_eq_ok_iff {x : Binary64} {i : Int} :
    integerOfNumber x = .ok i ↔ x.toInt? = some i ∧ -0x8000000000000000 < i ∧ i < 0x8000000000000000 := by
  unfold integerOfNumber
  by_cases hx : x.IsFinite
  · rw [if_neg (not_not_intro hx)]
    cases x.toInt? with
    | none => exact ⟨nofun, nofun⟩
    | some j =>
      dsimp only
      split
      · next hj =>
        constructor
        · intro h
          cases h
          exact ⟨rfl, hj⟩
        · rintro ⟨h, -⟩
          cases h
          rfl
      · next hj =>
        refine ⟨nofun, ?_⟩
        rintro ⟨h, hi⟩
        cases h
        exact absurd hi hj
  · rw [if_pos hx]
    exact ⟨nofun, fun h => absurd (isFinite_of_toInt? h.1) hx⟩

/-- A bound is read as itself. -/
theorem readAtLeast_int {least : Int} (i : AtLeast least) : readAtLeast least (.int i) = .ok i := dif_pos i.2

/-! ## Fields under their names -/

theorem firstNamed?_fields (names : List Text) (fields : List (Text × Value)) :
    firstNamed? names (fields.map fun (name, v) => (.text name, v)) =
      names.findSome? fun name => (Assoc.find? name fields).map (name, ·) := by
  unfold firstNamed?
  congr 1
  funext name
  induction fields with
  | nil => rfl
  | cons p fields ih =>
    simp only [List.map_cons, List.findSome?_cons, Assoc.find?]
    by_cases hp : p.1 = name
    · rw [if_pos hp, if_pos (by simpa using hp)]
      rfl
    · rw [if_neg hp, if_neg (by simpa using hp)]
      exact ih

section Field
variable {α : Type} {names : List Text} {read : Value → Checked α} {entries : List (Value × Value)}

theorem readRequired_ok {name : Text} {v : Value} {a : α} (hn : firstNamed? names entries = some (name, v))
    (hv : read v = .ok a) : readRequired names read entries = .ok a := by
  rw [readRequired, hn]
  simp only [hv]
  rfl

theorem readDefaulted_ok {absent : α} {name : Text} {v : Value} {a : α}
    (hn : firstNamed? names entries = some (name, v)) (hv : read v = .ok a) :
    readDefaulted names absent read entries = .ok a := by
  rw [readDefaulted, hn]
  simp only [hv]
  rfl

theorem readDefaulted_absent {absent : α} (hn : firstNamed? names entries = none) :
    readDefaulted names absent read entries = .ok absent := by
  rw [readDefaulted, hn]

theorem readOptional_ok {v : Value} {a : α} (hv : read v = .ok a) (h : v ≠ .none) :
    readOptional read v = .ok (some a) := by
  rw [readOptional, hv]
  · rfl
  · exact h

/-- An optional field that stands for nothing if it is not set. -/
theorem readOptional_ofOption {toValue : α → Value} {a? : Option α} (hv : ∀ a ∈ a?, read (toValue a) = .ok a)
    (h : ∀ a, toValue a ≠ .none) : readOptional read (.ofOption toValue a?) = .ok a? := by
  cases a? with
  | none => rfl
  | some a => exact readOptional_ok (hv a rfl) (h a)

theorem readOptional_ofBound {least : Int} {i? : Option (AtLeast least)} :
    readOptional (readAtLeast least) (.ofBound i?) = .ok i? := by
  unfold Value.ofBound
  exact readOptional_ofOption (fun i _ => readAtLeast_int i) nofun

/-- An optional field that is left out if it is not set. -/
theorem readDefaulted_present {toValue : α → Value} {name : Text} {a? : Option α}
    (hn : firstNamed? names entries = a?.map fun a => (name, toValue a)) (hv : ∀ a ∈ a?, read (toValue a) = .ok a)
    (h : ∀ a, toValue a ≠ .none) : readDefaulted names none (readOptional read) entries = .ok a? := by
  cases a? with
  | none => exact readDefaulted_absent hn
  | some a => exact readDefaulted_ok hn (readOptional_ok (hv a rfl) (h a))

end Field

/-! ## Records from their fields -/

section Records
variable {entries : List (Value × Value)}

theorem readRoutes_fields {rules : List Rule} {default? : Option Text}
    (hr : readDefaulted [lit "rules"] [] readRules entries = .ok rules)
    (hd : readDefaulted [lit "default"] none (readOptional readText) entries = .ok default?) :
    readRoutes (.mapping entries) = .ok ⟨rules, default?⟩ := by
  simp only [readRoutes, Value.entries?, hr, hd]
  rfl

/-- With bounds that are read, bulk settings come out if `enabled` does. -/
theorem readBulk_fields {maxMessages? : Option (AtLeast 1)} {maxAwaitMs? : Option (AtLeast 0)}
    (hm : readDefaulted [lit "maxMessagesCount", lit "max_messages_count"] none (readOptional (readAtLeast 1)) entries =
      .ok maxMessages?)
    (hw : readDefaulted [lit "maxAwaitDurationMs", lit "max_await_duration_ms"] none (readOptional (readAtLeast 0))
      entries = .ok maxAwaitMs?) :
    readBulk (.mapping entries) =
      (readDefaulted [lit "enabled"] true readBool entries).map fun b => ⟨b, maxMessages?, maxAwaitMs?⟩ := by
  simp only [readBulk, Value.entries?, hm, hw]
  cases readDefaulted [lit "enabled"] true readBool entries <;> rfl

theorem readRules_list {toValue : Rule → Value} {rules : List Rule} (h : ∀ r ∈ rules, readRule (toValue r) = .ok r) :
    readRules (.list (rules.map toValue)) = .ok rules := readItems_ok h

theorem readRules_tuple {toValue : Rule → Value} {rules : List Rule} (h : ∀ r ∈ rules, readRule (toValue r) = .ok r) :
    readRules (.tuple (rules.map toValue)) = .ok rules := readItems_ok h

/-- Of a name given twice the last value counts. -/
theorem readMetadata_mapping (metadata : List (Text × Text)) :
    readMetadata (.mapping (metadata.map fun (k, v) => (.text k, .text v))) = .ok (Assoc.ofPairs metadata) := by
  have hp : (metadata.map fun (k, v) => (Value.text k, Value.text v)).map readPair = metadata.map .ok := by
    rw [List.map_map]
    rfl
  simp only [readMetadata, Value.entries?, hp, Checked.all_ok]
  rfl

theorem readEntry_fields {e : Entry}
    (hpubsub : readRequired [lit "pubsubname", lit "pubsub_name"] readText entries = .ok e.pubsub)
    (htopic : readRequired [lit "topic"] readText entries = .ok e.topic)
    (hroute : readDefaulted [lit "route"] none (readOptional readText) entries = .ok e.route?)
    (hroutes : readDefaulted [lit "routes"] none (readOptional readRoutes) entries = .ok e.routes?)
    (hdead : readDefaulted [lit "deadLetterTopic", lit "dead_letter_topic"] none (readOptional readText) entries =
      .ok e.deadLetter?)
    (hmetadata : readDefaulted [lit "metadata"] [] readMetadata entries = .ok e.metadata)
    (hbulk : readDefaulted [lit "bulkSubscribe", lit "bulk_subscribe"] none (readOptional readBulk) entries =
      .ok e.bulk?) : readEntry (.mapping entries) = checkDelivery e := by
  simp only [readEntry, Value.entries?, hpubsub, htopic, hroute, hroutes, hdead, hmetadata, hbulk]
  rfl

theorem checkDelivery_eq_ok_iff {e e' : Entry} :
    checkDelivery e = .ok e' ↔ ¬ (e.route?.isSome ∧ e.routes?.isSome) ∧ e' = e := by
  unfold checkDelivery
  split
  · next h => exact ⟨nofun, fun h' => absurd h h'.1⟩
  · next h =>
    constructor
    · intro h'
      exact ⟨h, (Except.ok.inj h').symm⟩
    · rintro ⟨-, rfl⟩
      rfl

/-- Bulk settings are read field by field. -/
theorem readBulk_eq_ok_iff {b : Bulk} : readBulk (.mapping entries) = .ok b ↔
    readDefaulted [lit "enabled"] true readBool entries = .ok b.enabled ∧
    readDefaulted [lit "maxMessagesCount", lit "max_messages_count"] none (readOptional (readAtLeast 1)) entries =
      .ok b.maxMessages? ∧
    readDefaulted [lit "maxAwaitDurationMs", lit "max_await_duration_ms"] none (readOptional (readAtLeast 0)) entries =
      .ok b.maxAwaitMs? := by
  constructor
  · intro h
    obtain ⟨⟨enabled, maxMessages?, maxAwaitMs?⟩, hf, rfl⟩ := map_eq_ok_iff.1 h
    obtain ⟨he, hf⟩ := Checked.both_eq_ok_iff.1 hf
    obtain ⟨hm, hw⟩ := Checked.both_eq_ok_iff.1 hf
    exact ⟨he, hm, hw⟩
  · rintro ⟨he, hm, hw⟩
    rw [readBulk_fields hm hw, he]
    rfl

/-- An entry is read field by field, and goes one way. -/
theorem readEntry_eq_ok_iff {e : Entry} : readEntry (.mapping entries) = .ok e ↔
    ¬ (e.route?.isSome ∧ e.routes?.isSome) ∧
    readRequired [lit "pubsubname", lit "pubsub_name"] readText entries = .ok e.pubsub ∧
    readRequired [lit "topic"] readText entries = .ok e.topic ∧
    readDefaulted [lit "route"] none (readOptional readText) entries = .ok e.route? ∧
    readDefaulted [lit "routes"] none (readOptional readRoutes) entries = .ok e.routes? ∧
    readDefaulted [lit "deadLetterTopic", lit "dead_letter_topic"] none (readOptional readText) entries =
      .ok e.deadLetter? ∧
    readDefaulted [lit "metadata"] [] readMetadata entries = .ok e.metadata ∧
    readDefaulted [lit "bulkSubscribe", lit "bulk_subscribe"] none (readOptional readBulk) entries = .ok e.bulk? := by
  constructor
  · intro h
    obtain ⟨⟨pubsub, topic, route?, routes?, deadLetter?, metadata, bulk?⟩, hf, hc⟩ := bind_eq_ok_iff.1 h
    obtain ⟨hd, rfl⟩ := checkDelivery_eq_ok_iff.1 hc
    obtain ⟨hpubsub, hf⟩ := Checked.both_eq_ok_iff.1 hf
    obtain ⟨htopic, hf⟩ := Checked.both_eq_ok_iff.1 hf
    obtain ⟨hroute, hf⟩ := Checked.both_eq_ok_iff.1 hf
    obtain ⟨hroutes, hf⟩ := Checked.both_eq_ok_iff.1 hf
    obtain ⟨hdead, hf⟩ := Checked.both_eq_ok_iff.1 hf
    obtain ⟨hmetadata, hbulk⟩ := Checked.both_eq_ok_iff.1 hf
    exact ⟨hd, hpubsub, htopic, hroute, hroutes, hdead, hmetadata, hbulk⟩
  · rintro ⟨hd, hpubsub, htopic, hroute, hroutes, hdead, hmetadata, hbulk⟩
    rw [readEntry_fields hpubsub htopic hroute hroutes hdead hmetadata hbulk]
    exact checkDelivery_eq_ok_iff.2 ⟨hd, rfl⟩

end Records

/-! ## Records from their own fields -/

theorem readRoutes_ofFields (r : Routes) : readRoutes (.ofFields r.fieldValues) = .ok r := by
  refine readRoutes_fields (readDefaulted_ok rfl ?_) (readDefaulted_ok rfl ?_)
  · exact readRules_tuple fun _ _ => rfl
  · exact readOptional_ofOption (fun _ _ => rfl) nofun

theorem readBulk_ofFields {enabled : Value} {maxMessages? : Option (AtLeast 1)} {maxAwaitMs? : Option (AtLeast 0)} :
    readBulk (.ofFields [(lit "enabled", enabled), (lit "max_messages_count", .ofBound maxMessages?),
        (lit "max_await_duration_ms", .ofBound maxAwaitMs?)]) =
      ((readBool enabled).under (.name (lit "enabled"))).map fun b => ⟨b, maxMessages?, maxAwaitMs?⟩ :=
  readBulk_fields (readDefaulted_ok rfl readOptional_ofBound) (readDefaulted_ok rfl readOptional_ofBound)

theorem readEntry_ofFields (e : Entry) :
    readEntry (.ofFields e.fieldValues) = checkDelivery { e with metadata := Assoc.ofPairs e.metadata } := by
  refine readEntry_fields (readRequired_ok rfl rfl) (readRequired_ok rfl rfl) (readDefaulted_ok rfl ?_)
    (readDefaulted_ok rfl ?_) (readDefaulted_ok rfl ?_) (readDefaulted_ok rfl ?_) (readDefaulted_ok rfl ?_)
  · exact readOptional_ofOption (fun _ _ => rfl) nofun
  · exact readOptional_ofOption (fun _ _ => rfl) nofun
  · exact readOptional_ofOption (fun _ _ => rfl) nofun
  · exact readMetadata_mapping e.metadata
  · exact readOptional_ofOption (fun _ _ => rfl) nofun

/-! ## What is admitted -/

/-- An entry that is read from its own fields as itself. -/
def Entry.Admitted (e : Entry) : Prop := readEntry (.ofFields e.fieldValues) = .ok e

/-- Delivery goes one way, and no name of the metadata is there twice. -/
theorem Entry.admitted_iff {e : Entry} :
    e.Admitted ↔ ¬ (e.route?.isSome ∧ e.routes?.isSome) ∧ (Assoc.keys e.metadata).Nodup := by
  rw [Admitted, readEntry_ofFields, checkDelivery_eq_ok_iff]
  refine and_congr_right fun _ => ⟨fun h => ?_, fun h => by rw [Assoc.ofPairs_of_nodup h]⟩
  -- Reading changes nothing but metadata in which a name is there twice.
  have hm : e.metadata = Assoc.ofPairs e.metadata := congrArg Entry.metadata h
  rw [hm]
  exact Assoc.nodup_keys_ofPairs _

end PubSub.Manifest

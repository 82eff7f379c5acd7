import PubSub.Proofs.Manifest.RoundTrip
import PubSub.Value.Json
import PubSub.Value.Mapping
/-!
# Values read back

A value that is written as JSON and read again comes back in its normal form (`read_toJsonText`): sequences as lists,
mappings of both sorts as mappings, records as mappings of the fields that are set, all else as it was. The proof goes
along the value and carries three things: its JSON form, that this is parsed as it is printed, and what it stands for.
-/
namespace PubSub

/-! ## Records as mappings -/

namespace Manifest

def Rule.asMapping (r : Rule) : Value := .ofFields [(lit "match", .text r.condition), (lit "path", .text r.path)]

/-- The fields that are set, under their wire names. -/
def Routes.asMapping (r : Routes) : Value :=
  .ofFields (Assoc.present
    [(lit "rules", some (.list (r.rules.map Rule.asMapping))), (lit "default", r.default?.map .text)])

/-- The fields that are set, under their wire names. -/
def Bulk.asMapping (b : Bulk) : Value :=
  .ofFields (Assoc.present
    [(lit "enabled", some (.bool b.enabled)), (lit "maxMessagesCount", b.maxMessages?.map fun i => .int i.val),
      (lit "maxAwaitDurationMs", b.maxAwaitMs?.map fun i => .int i.val)])

/-- The fields that are set, under their wire names. Metadata always counts as set. -/
def Entry.asMapping (e : Entry) : Value :=
  .ofFields (Assoc.present
    [(lit "pubsubname", some (.text e.pubsub)), (lit "topic", some (.text e.topic)), (lit "route", e.route?.map .text),
      (lit "routes", e.routes?.map Routes.asMapping), (lit "deadLetterTopic", e.deadLetter?.map .text),
      (lit "metadata", some (.ofFields (e.metadata.map fun (name, value) => (name, .text value)))),
      (lit "bulkSubscribe", e.bulk?.map Bulk.asMapping)])

end Manifest

namespace Value

mutual

/-- What is left of a value in a document: lists, mappings and scalars. -/
def normal : Value → Value
  | .list items => .list (normalItems items)
  | .tuple items => .list (normalItems items)
  | .mapping entries => .mapping (normalEntries entries)
  | .view entries => .mapping (normalEntries entries)
  | .rule r => r.asMapping
  | .routes r => r.asMapping
  | .bulk b => b.asMapping
  | .entry e => e.asMapping
  | v => v

def normalItems : List Value → List Value
  | [] => []
  | v :: vs => normal v :: normalItems vs

/-- Keys and their order stay. -/
def normalEntries : List (Value × Value) → List (Value × Value)
  | [] => []
  | (k, v) :: es => (k, normal v) :: normalEntries es

end

/-- A value that a document can hold: no fractions, octets or settings in it, no integer that is too long, and texts
for keys, each there once. The texts may be any, except that UTF-8 carries the names of an entry's metadata. -/
inductive IsDocument : Value → Prop
  | none : IsDocument .none
  | bool (b : Bool) : IsDocument (.bool b)
  | int {i : Int} (h : ¬ Json.IsLong i) : IsDocument (.int i)
  | text (t : Text) : IsDocument (.text t)
  | list {items : List Value} (h : ∀ v ∈ items, IsDocument v) : IsDocument (.list items)
  | tuple {items : List Value} (h : ∀ v ∈ items, IsDocument v) : IsDocument (.tuple items)
  | mapping {fields : List (Text × Value)} (hn : (Assoc.keys fields).Nodup) (h : ∀ f ∈ fields, IsDocument f.2) :
    IsDocument (.mapping (fields.map fun (name, v) => (.text name, v)))
  | view {fields : List (Text × Value)} (hn : (Assoc.keys fields).Nodup) (h : ∀ f ∈ fields, IsDocument f.2) :
    IsDocument (.view (fields.map fun (name, v) => (.text name, v)))
  | rule (r : Manifest.Rule) : IsDocument (.rule r)
  | routes (r : Manifest.Routes) : IsDocument (.routes r)
  | bulk {b : Manifest.Bulk} (h : ∀ i ∈ b.integers, ¬ Json.IsLong i) : IsDocument (.bulk b)
  | entry {e : Manifest.Entry} (hn : (Assoc.keys e.metadata).Nodup)
    (ht : ∀ name ∈ Assoc.keys e.metadata, Text.Encodable name) (h : ∀ i ∈ e.integers, ¬ Json.IsLong i) :
    IsDocument (.entry e)

end Value

/-! ## What the documents of records stand for -/

namespace Manifest

theorem toValue_present (slots : List (Text × Option Json)) :
    (Json.obj (Assoc.present slots)).toValue =
      .ofFields (Assoc.present (slots.map fun s => (s.1, s.2.map Json.toValue))) := by
  rw [Json.toValue, toEntries_eq, Assoc.map_present]
  rfl

theorem Routes.toValue_toJson (r : Routes) : r.toJson.toValue = r.asMapping := by
  have hv : (Json.arr (r.rules.map Rule.toJson)).toValue = .list (r.rules.map Rule.asMapping) := by
    rw [Json.toValue, toValues_eq, List.map_map]
    rfl
  rw [Routes.toJson_eq, toValue_present]
  simp only [slots, List.map_cons, List.map_nil, Option.map_some, Option.map_map, hv]
  rfl

theorem Bulk.toValue_toJson (b : Bulk) : b.toJson.toValue = b.asMapping := by
  rw [Bulk.toJson_eq, toValue_present]
  simp only [slots, List.map_cons, List.map_nil, Option.map_some, Option.map_map]
  rfl

theorem toValue_metadataJson {metadata : List (Text × Text)} (h : (Assoc.keys metadata).Nodup)
    (ht : ∀ name ∈ Assoc.keys metadata, Text.Encodable name) :
    (metadataJson metadata).toValue = .ofFields (metadata.map fun (name, value) => (name, .text value)) := by
  rw [metadataJson_eq h ht, toValue_texts, Value.ofFields, List.map_map]
  rfl

theorem Entry.toValue_toJson {e : Entry} (h : (Assoc.keys e.metadata).Nodup)
    (ht : ∀ name ∈ Assoc.keys e.metadata, Text.Encodable name) : e.toJson.toValue = e.asMapping := by
  have hroutes : Json.toValue ∘ Routes.toJson = Routes.asMapping := funext Routes.toValue_toJson
  have hbulk : Json.toValue ∘ Bulk.toJson = Bulk.asMapping := funext Bulk.toValue_toJson
  rw [Entry.toJson_eq, toValue_present]
  simp only [slotsWith, List.map_cons, List.map_nil, Option.map_some, Option.map_map, hroutes, hbulk,
    toValue_metadataJson h ht]
  rfl

end Manifest

/-! ## Documents as values -/

theorem Value.writable_of_short {j : Json} (h : j.Everywhere Json.Short) : writable j = .ok j := by
  rw [writable, (Json.hasLong_eq_false_iff j).2 h]
  rfl

namespace Json

mutual

/-- The value of a document has the document as its JSON form. -/
theorem toJson_toValue : ∀ j : Json, j.Everywhere Short → j.toValue.toJson = .ok j
  | .null, _ => rfl
  | .bool _, _ => rfl
  | .int _, h => Value.writable_of_short h
  | .float _, _ => rfl
  | .str _, _ => rfl
  | .arr js, h => by
    rw [toValue, Value.toJson, itemsToJson_toValues js h.2]
    rfl
  | .obj ms, h => by
    rw [toValue, Value.toJson, entriesToJson_toEntries ms h.2]
    rfl

theorem itemsToJson_toValues : ∀ js : List Json, EverywhereItems Short js → Value.itemsToJson (toValues js) = .ok js
  | [], _ => rfl
  | j :: js, h => by
    rw [toValues, Value.itemsToJson, toJson_toValue j h.1, itemsToJson_toValues js h.2]
    rfl

theorem entriesToJson_toEntries :
    ∀ ms : List (Text × Json), EverywhereMembers Short ms → Value.entriesToJson (toEntries ms) = .ok ms
  | [], _ => rfl
  | (_, j) :: ms, h => by
    rw [toEntries, Value.entriesToJson, toJson_toValue j h.1, entriesToJson_toEntries ms h.2]
    rfl

end

theorem toJsonText_toValue {j : Json} (h : j.Everywhere Short) : j.toValue.toJsonText = .ok j.print := by
  rw [Value.toJsonText, toJson_toValue j h]
  rfl

end Json

/-! ## Along the value -/

namespace Value

/-- The JSON form of the value, which is parsed as it is printed and stands for the normal form. -/
structure IsWrittenAs (v : Value) (j : Json) : Prop where
  json : v.toJson = .ok j
  readable : j.Readable
  value : j.toValue = v.normal

/-- Items that have JSON forms have them in their order. -/
theorem exists_itemsToJson {items : List Value} (h : ∀ v ∈ items, ∃ j, v.IsWrittenAs j) :
    ∃ js, itemsToJson items = .ok js ∧ (Json.arr js).Readable ∧ Json.toValues js = normalItems items := by
  induction items with
  | nil => exact ⟨[], rfl, ⟨trivial, trivial⟩, rfl⟩
  | cons v vs ih =>
    obtain ⟨⟨j, hj⟩, hvs⟩ := List.forall_mem_cons.1 h
    obtain ⟨js, he, ⟨-, hr⟩, hn⟩ := ih hvs
    refine ⟨j :: js, ?_, ⟨trivial, hj.readable, hr⟩, ?_⟩
    · rw [itemsToJson, hj.json, he]
      rfl
    · rw [Json.toValues, normalItems, hj.value, hn]

/-- So do the values of fields, and the names stay. -/
theorem exists_entriesToJson {fields : List (Text × Value)} (h : ∀ f ∈ fields, ∃ j, f.2.IsWrittenAs j) :
    ∃ ms, entriesToJson (fields.map fun (name, v) => (.text name, v)) = .ok ms ∧
      Assoc.keys ms = Assoc.keys fields ∧ Json.EverywhereMembers Json.ReadsBack ms ∧
      Json.toEntries ms = normalEntries (fields.map fun (name, v) => (.text name, v)) := by
  induction fields with
  | nil => exact ⟨[], rfl, rfl, trivial, rfl⟩
  | cons f fields ih =>
    obtain ⟨name, v⟩ := f
    obtain ⟨⟨j, hj⟩, hfields⟩ := List.forall_mem_cons.1 h
    obtain ⟨ms, he, hk, hr, hn⟩ := ih hfields
    refine ⟨(name, j) :: ms, ?_, congrArg (name :: ·) hk, ⟨hj.readable, hr⟩, ?_⟩
    · rw [List.map_cons, entriesToJson, hj.json, he]
      rfl
    · rw [List.map_cons, Json.toEntries, normalEntries, hj.value, hn]

theorem exists_isWrittenAs {v : Value} (h : v.IsDocument) : ∃ j, v.IsWrittenAs j := by
  induction h with
  | none => exact ⟨.null, rfl, trivial, rfl⟩
  | bool b => exact ⟨.bool b, rfl, trivial, rfl⟩
  | int hi => exact ⟨.int _, writable_of_short hi, hi, rfl⟩
  | text t => exact ⟨.str t, rfl, trivial, rfl⟩
  | list _ ih | tuple _ ih =>
    obtain ⟨js, he, hr, hn⟩ := exists_itemsToJson ih
    refine ⟨.arr js, ?_, hr, ?_⟩
    · rw [toJson, he]
      rfl
    · rw [Json.toValue, normal, hn]
  | mapping hk _ ih | view hk _ ih =>
    obtain ⟨ms, he, hms, hr, hn⟩ := exists_entriesToJson ih
    refine ⟨.obj ms, ?_, ⟨?_, hr⟩, ?_⟩
    · rw [toJson, he]
      rfl
    · -- No key is there twice, so no member is lost.
      rw [Json.ReadsBack, hms]
      exact hk
    · rw [Json.toValue, normal, hn]
  | rule r =>
    have hn : [lit "match", lit "path"].Nodup := by decide
    have hr : r.toJson.Readable := ⟨hn, trivial, trivial, trivial⟩
    exact ⟨r.toJson, writable_of_short hr.short, hr, rfl⟩
  | routes r =>
    have hr : r.toJson.Readable := Manifest.everywhere_routes Manifest.holdsOfFrame_readsBack fun _ _ => trivial
    exact ⟨r.toJson, writable_of_short hr.short, hr, r.toValue_toJson⟩
  | @bulk b hi =>
    have hr : b.toJson.Readable := Manifest.everywhere_bulk Manifest.holdsOfFrame_readsBack hi
    exact ⟨_, writable_of_short hr.short, hr, b.toValue_toJson⟩
  | @entry e hk ht hi =>
    have hr : e.toJson.Readable :=
      Manifest.everywhere_toJson Manifest.holdsOfFrame_readsBack (fun _ _ => trivial) hi
    exact ⟨_, writable_of_short hr.short, hr, Manifest.Entry.toValue_toJson hk ht⟩

theorem IsWrittenAs.toJsonText {v : Value} {j : Json} (h : v.IsWrittenAs j) : v.toJsonText = .ok j.print := by
  rw [Value.toJsonText, h.json]
  rfl

/-- What a document can hold is written, and the text is read as the normal form of what was written. -/
theorem read_toJsonText {v : Value} (h : v.IsDocument) :
    ∃ t j, v.toJsonText = .ok t ∧ Json.read (.text t) = .ok j ∧ j.toValue = v.normal := by
  obtain ⟨j, hj⟩ := exists_isWrittenAs h
  exact ⟨j.print, j, hj.toJsonText, Json.read_print hj.readable, hj.value⟩

/-- An entry of which some fields are set, in its bulk settings and its routing table too. -/
def routedEntry : Manifest.Entry :=
  { pubsub := lit "pubsub", topic := lit "orders",
    routes? := some { rules := [⟨lit "type == \"vip\"", lit "/vip"⟩] },
    bulk? := some { maxAwaitMs? := some .zero } }

/-- Sequences and mappings of both sorts in one another, with an entry in the innermost. -/
def nestedFields : List (Text × Value) :=
  [(lit "z\n\"\\", .tuple [.none, .bool true, .int (-1000), .text (lit "\t€𐐷")]),
    ([], .list [.view ([(lit "b", .tuple []), (lit "a", .entry routedEntry)].map fun (name, v) => (.text name, v))])]

theorem read_toJsonText_nested : (ofFields nestedFields).IsDocument ∧
    (ofFields nestedFields).normal =
      .ofFields [(lit "z\n\"\\", .list [.none, .bool true, .int (-1000), .text (lit "\t€𐐷")]),
        ([], .list [.ofFields [(lit "b", .list []), (lit "a",
          .ofFields [(lit "pubsubname", .text (lit "pubsub")), (lit "topic", .text (lit "orders")),
            (lit "routes", .ofFields [(lit "rules", .list
              [.ofFields [(lit "match", .text (lit "type == \"vip\"")), (lit "path", .text (lit "/vip"))]])]),
            (lit "metadata", .ofFields []),
            (lit "bulkSubscribe", .ofFields [(lit "enabled", .bool true), (lit "maxAwaitDurationMs", .int 0)])])]])] ∧
    ∃ t j, (ofFields nestedFields).toJsonText = .ok t ∧ Json.read (.text t) = .ok j ∧
      j.toValue = (ofFields nestedFields).normal := by
  have hshort : ∀ i : Int, i.natAbs < 10 ^ 4 → ¬ Json.IsLong i := by
    intro i hi
    exact Json.not_isLong (by decide : 4 ≤ Json.maxDigits) hi
  have hentry : (Value.entry routedEntry).IsDocument := by
    refine .entry List.nodup_nil nofun ?_
    intro i hi
    obtain rfl : i = 0 := List.mem_singleton.1 hi
    exact hshort 0 (by decide)
  have hview : (Value.view ([(lit "b", .tuple []), (lit "a", .entry routedEntry)].map
      fun (name, v) => (.text name, v))).IsDocument := by
    refine .view (by decide) ?_
    simp only [List.forall_mem_cons]
    exact ⟨.tuple nofun, hentry, nofun⟩
  have h : (ofFields nestedFields).IsDocument := by
    refine .mapping (by decide) ?_
    simp only [nestedFields, List.forall_mem_cons]
    refine ⟨.tuple ?_, .list ?_, nofun⟩
    · simp only [List.forall_mem_cons]
      exact ⟨.none, .bool true, .int (hshort _ (by decide)), .text _, nofun⟩
    · simp only [List.forall_mem_cons]
      exact ⟨hview, nofun⟩
  exact ⟨h, rfl, read_toJsonText h⟩

end Value

end PubSub

import PubSub.Manifest.Document
import PubSub.Proofs.Json.RoundTrip
import PubSub.Proofs.Manifest.Reading
/-!
# Manifests read back

Reading undoes encoding (`decode_encode`): record by record a wire form is read as the record it was made from, and the
document around the entries goes through the printer, UTF-8 and the parser unchanged.
-/
namespace PubSub.Manifest

/-! ## Wire forms as slots -/

def Routes.names : List Text := [lit "rules", lit "default"]

def Bulk.names : List Text := [lit "enabled", lit "maxMessagesCount", lit "maxAwaitDurationMs"]

def Entry.names : List Text :=
  [lit "pubsubname", lit "topic", lit "route", lit "routes", lit "deadLetterTopic", lit "metadata",
    lit "bulkSubscribe"]

/-- The members of a routing table, unset ones included. -/
def Routes.slots (r : Routes) : List (Text × Option Json) :=
  [(lit "rules", some (.arr (r.rules.map Rule.toJson))), (lit "default", r.default?.map .str)]

/-- The members of bulk settings, unset ones included. -/
def Bulk.slots (b : Bulk) : List (Text × Option Json) :=
  [(lit "enabled", some (.bool b.enabled)), (lit "maxMessagesCount", b.maxMessages?.map fun i => .int i.val),
    (lit "maxAwaitDurationMs", b.maxAwaitMs?.map fun i => .int i.val)]

/-- The members of an entry with some metadata or none, unset ones included. -/
def Entry.slotsWith (e : Entry) (metadata? : Option Json) : List (Text × Option Json) :=
  [(lit "pubsubname", some (.str e.pubsub)), (lit "topic", some (.str e.topic)), (lit "route", e.route?.map .str),
    (lit "routes", e.routes?.map Routes.toJson), (lit "deadLetterTopic", e.deadLetter?.map .str),
    (lit "metadata", metadata?), (lit "bulkSubscribe", e.bulk?.map Bulk.toJson)]

/-- The members of an entry as it is served, unset ones included. -/
def Entry.slots (e : Entry) : List (Text × Option Json) :=
  e.slotsWith (if e.metadata = [] then none else some (metadataJson e.metadata))

/-- Names of members that are distinct and that UTF-8 carries. -/
def ProperNames (names : List Text) : Prop := names.Nodup ∧ ∀ name ∈ names, Text.Encodable name

theorem Routes.properNames (r : Routes) : ProperNames (Assoc.keys r.slots) := show ProperNames names by
  unfold ProperNames
  decide

theorem Bulk.properNames (b : Bulk) : ProperNames (Assoc.keys b.slots) := show ProperNames names by
  unfold ProperNames
  decide

theorem Entry.properNames (e : Entry) : ProperNames (Assoc.keys e.slots) := show ProperNames names by
  unfold ProperNames
  decide

theorem memberOf_eq {α : Type} (name : Text) (toJson : α → Json) (a? : Option α) :
    memberOf name toJson a? = Assoc.present [(name, a?.map toJson)] := by
  cases a? <;> rfl

theorem Routes.toJson_eq (r : Routes) : r.toJson = .obj (Assoc.present r.slots) := by
  rw [toJson, memberOf_eq]
  rfl

theorem Bulk.toJson_eq (b : Bulk) : b.toJson = .obj (Assoc.present b.slots) := by
  rw [toJson, memberOf_eq, memberOf_eq, List.cons_append, ← Assoc.present_append]
  rfl

theorem Entry.members_eq (e : Entry) : e.members = Assoc.present (e.slotsWith (some (metadataJson e.metadata))) := by
  simp only [members, memberOf_eq]
  rw [show [(lit "metadata", metadataJson e.metadata)] =
      Assoc.present [(lit "metadata", some (metadataJson e.metadata))] from rfl]
  simp only [List.append_assoc, ← Assoc.present_append]
  rfl

theorem Entry.toJson_eq (e : Entry) :
    e.toJson = .obj (Assoc.present (e.slotsWith (some (metadataJson e.metadata)))) := by
  rw [toJson, members_eq]

theorem Entry.wire_eq (e : Entry) : e.wire = .obj (Assoc.present e.slots) := by
  unfold wire slots
  by_cases h : e.metadata = []
  · -- To leave out a member is to leave its slot unset.
    have hf := Assoc.filter_present (fun name => decide (name ≠ lit "metadata"))
      (e.slotsWith (some (metadataJson e.metadata)))
    rw [if_pos h, if_pos h, members_eq, hf]
    rfl
  · rw [if_neg h, if_neg h, toJson_eq]

/-! ## What holds of all parts -/

section Everywhere
variable {p : Json → Prop}

theorem everywhere_set {j : Json} (h : j.Everywhere p) : ∀ k ∈ some j, k.Everywhere p := by
  rintro _ ⟨⟩
  exact h

theorem everywhere_slot {α : Type} {toJson : α → Json} {a? : Option α} (h : ∀ a ∈ a?, (toJson a).Everywhere p) :
    ∀ j ∈ a?.map toJson, j.Everywhere p := by
  intro j hj
  obtain ⟨a, ha, rfl⟩ := Option.map_eq_some_iff.1 hj
  exact h a ha

end Everywhere

/-! ## Records read back -/

theorem toEntries_eq (members : List (Text × Json)) :
    Json.toEntries members = (members.map fun m => (m.1, m.2.toValue)).map fun (k, v) => (.text k, v) := by
  induction members with
  | nil => rfl
  | cons m members ih => exact congrArg ((Value.text m.1, m.2.toValue) :: ·) ih

theorem toValue_texts (pairs : List (Text × Text)) :
    (Json.obj (pairs.map fun m => (m.1, .str m.2))).toValue =
      .mapping (pairs.map fun (name, value) => (.text name, .text value)) := by
  rw [Json.toValue, toEntries_eq, List.map_map, List.map_map]
  rfl

theorem toValues_eq (items : List Json) : Json.toValues items = items.map Json.toValue := by
  induction items with
  | nil => rfl
  | cons j items ih => exact congrArg (j.toValue :: ·) ih

section Slot
variable {slots : List (Text × Option Json)} {name : Text} {names : List Text}

theorem firstNamed?_slots (hs : (Assoc.keys slots).Nodup) (names : List Text) :
    firstNamed? names (Json.toEntries (Assoc.present slots)) =
      names.findSome? fun n => ((Assoc.find? n slots).join.map Json.toValue).map (n, ·) := by
  simp only [toEntries_eq, firstNamed?_fields, Assoc.find?_map, Assoc.find?_present hs]

/-- A member that is set is found under its wire name, whatever other names would do. -/
theorem firstNamed?_set {j : Json} (hs : (Assoc.keys slots).Nodup) (ha : Assoc.find? name slots = some (some j)) :
    firstNamed? (name :: names) (Json.toEntries (Assoc.present slots)) = some (name, j.toValue) := by
  rw [firstNamed?_slots hs, List.findSome?_cons, ha]
  rfl

theorem firstNamed?_slot {α : Type} {toJson : α → Json} {a? : Option α} (hs : (Assoc.keys slots).Nodup)
    (ha : Assoc.find? name slots = some (a?.map toJson)) (hn : ∀ n ∈ names, Assoc.find? n slots = none) :
    firstNamed? (name :: names) (Json.toEntries (Assoc.present slots)) =
      a?.map fun a => (name, (toJson a).toValue) := by
  cases a? with
  | some a => exact firstNamed?_set hs ha
  | none =>
    rw [firstNamed?_slots hs, List.findSome?_cons, ha]
    refine List.findSome?_eq_none_iff.2 fun n hm => ?_
    rw [hn n hm]
    rfl

end Slot

theorem readRule_toJson (r : Rule) : readRule r.toJson.toValue = .ok r := rfl

theorem readRoutes_toJson (r : Routes) : readRoutes r.toJson.toValue = .ok r := by
  have hs := r.properNames.1
  have hv : (Json.arr (r.rules.map Rule.toJson)).toValue = .list (r.rules.map fun x => x.toJson.toValue) := by
    rw [Json.toValue, toValues_eq, List.map_map]
    rfl
  rw [Routes.toJson_eq]
  refine readRoutes_fields (readDefaulted_ok (firstNamed?_set hs rfl) ?_) ?_
  · rw [hv]
    exact readRules_list fun x _ => readRule_toJson x
  · exact readDefaulted_present (firstNamed?_slot hs rfl (List.forall_mem_nil _)) (fun _ _ => rfl) nofun

theorem readBulk_toJson (b : Bulk) : readBulk b.toJson.toValue = .ok b := by
  have hs := b.properNames.1
  have hb := readBulk_fields
    (readDefaulted_present (firstNamed?_slot hs rfl (List.forall_mem_singleton.2 rfl))
      (fun i _ => readAtLeast_int i) nofun)
    (readDefaulted_present (firstNamed?_slot hs rfl (List.forall_mem_singleton.2 rfl))
      (fun i _ => readAtLeast_int i) nofun)
  have he : readDefaulted [lit "enabled"] true readBool (Json.toEntries (Assoc.present b.slots)) = .ok b.enabled :=
    readDefaulted_ok (firstNamed?_set hs rfl) rfl
  rw [he] at hb
  rw [Bulk.toJson_eq]
  exact hb

/-- Names that UTF-8 carries stand in the object as they are. -/
theorem metadataJson_eq {metadata : List (Text × Text)} (h : (Assoc.keys metadata).Nodup)
    (ht : ∀ name ∈ Assoc.keys metadata, Text.Encodable name) :
    metadataJson metadata = .obj (metadata.map fun m => (m.1, .str m.2)) := by
  have hm : (metadata.map fun m => (Text.scrub m.1, Json.str m.2)) = metadata.map fun m => (m.1, .str m.2) :=
    List.map_congr_left fun m hm => by rw [Text.scrub_of_encodable (ht m.1 (List.mem_map_of_mem hm))]
  have hk : Assoc.keys (metadata.map fun m => (m.1, Json.str m.2)) = Assoc.keys metadata := List.map_map
  unfold metadataJson
  rw [hm, Assoc.ofPairs_of_nodup (hk ▸ h)]

theorem readMetadata_metadataJson {metadata : List (Text × Text)} (h : (Assoc.keys metadata).Nodup)
    (ht : ∀ name ∈ Assoc.keys metadata, Text.Encodable name) :
    readMetadata (metadataJson metadata).toValue = .ok metadata := by
  have hm := readMetadata_mapping metadata
  rw [Assoc.ofPairs_of_nodup h] at hm
  rw [metadataJson_eq h ht, toValue_texts]
  exact hm

/-- An entry is read from its members, whichever way its metadata is given among them. -/
theorem readEntry_slotsWith {e : Entry} (h : e.Admitted) {metadata? : Option Json}
    (hmetadata : readDefaulted [lit "metadata"] [] readMetadata
      (Json.toEntries (Assoc.present (e.slotsWith metadata?))) = .ok e.metadata) :
    readEntry (Json.obj (Assoc.present (e.slotsWith metadata?))).toValue = .ok e := by
  have hs : (Assoc.keys (e.slotsWith metadata?)).Nodup := e.properNames.1
  obtain ⟨hd, -⟩ := Entry.admitted_iff.1 h
  rw [← checkDelivery_eq_ok_iff.2 ⟨hd, rfl⟩]
  refine readEntry_fields (readRequired_ok (firstNamed?_set hs rfl) rfl) (readRequired_ok (firstNamed?_set hs rfl) rfl)
    ?_ ?_ ?_ hmetadata ?_
  · exact readDefaulted_present (firstNamed?_slot hs rfl (List.forall_mem_nil _)) (fun _ _ => rfl) nofun
  · exact readDefaulted_present (firstNamed?_slot hs rfl (List.forall_mem_nil _)) (fun r _ => readRoutes_toJson r) nofun
  · exact readDefaulted_present (firstNamed?_slot hs rfl (List.forall_mem_singleton.2 rfl)) (fun _ _ => rfl) nofun
  · exact readDefaulted_present (firstNamed?_slot hs rfl (List.forall_mem_singleton.2 rfl))
      (fun b _ => readBulk_toJson b) nofun

theorem readEntry_toJson {e : Entry} (h : e.Admitted) (ht : ∀ name ∈ Assoc.keys e.metadata, Text.Encodable name) :
    readEntry e.toJson.toValue = .ok e := by
  obtain ⟨-, hm⟩ := Entry.admitted_iff.1 h
  rw [Entry.toJson_eq]
  exact readEntry_slotsWith h
    (readDefaulted_ok (firstNamed?_set e.properNames.1 rfl) (readMetadata_metadataJson hm ht))

theorem readEntry_wire {e : Entry} (h : e.Admitted) (ht : ∀ name ∈ Assoc.keys e.metadata, Text.Encodable name) :
    readEntry e.wire.toValue = .ok e := by
  by_cases he : e.metadata = []
  · -- Empty metadata is left out, and the absent member is read as empty metadata.
    have hs : (Assoc.keys (e.slotsWith none)).Nodup := e.properNames.1
    rw [Entry.wire_eq, Entry.slots, if_pos he]
    refine readEntry_slotsWith h ?_
    rw [he]
    exact readDefaulted_absent (firstNamed?_slots hs _)
  · rw [Entry.wire, if_neg he]
    exact readEntry_toJson h ht

/-! ## The document -/

/-- The strings of a routing table. -/
def Routes.texts (r : Routes) : List Text :=
  r.rules.flatMap (fun x => [x.condition, x.path]) ++ r.default?.toList

/-- The strings of an entry. -/
def Entry.texts (e : Entry) : List Text :=
  [e.pubsub, e.topic] ++ e.route?.toList ++ e.routes?.toList.flatMap Routes.texts ++ e.deadLetter?.toList
    ++ e.metadata.flatMap fun m => [m.1, m.2]

theorem Entry.encodable_names {e : Entry} (h : ∀ t ∈ e.texts, Text.Encodable t) :
    ∀ name ∈ Assoc.keys e.metadata, Text.Encodable name := by
  intro name hn
  obtain ⟨m, hm, rfl⟩ := List.mem_map.1 hn
  exact h m.1 (List.mem_append_right _ (List.mem_flatMap.2 ⟨m, hm, by simp⟩))

/-- The integers of bulk settings. -/
def Bulk.integers (b : Bulk) : List Int :=
  (b.maxMessages?.map Subtype.val).toList ++ (b.maxAwaitMs?.map Subtype.val).toList

/-- The integers of an entry. -/
def Entry.integers (e : Entry) : List Int := e.bulk?.toList.flatMap Bulk.integers

/-- What holds of truth values, of arrays, and of objects with proper names. -/
structure HoldsOfFrame (p : Json → Prop) : Prop where
  bool : ∀ b, p (.bool b)
  arr : ∀ items, p (.arr items)
  obj : ∀ members, ProperNames (Assoc.keys members) → p (.obj members)

/-- Metadata is written under proper names, whatever its own names are. -/
theorem properNames_metadataJson {metadata : List (Text × Text)} {members : List (Text × Json)}
    (h : metadataJson metadata = .obj members) : ProperNames (Assoc.keys members) := by
  rw [← Json.obj.inj h]
  refine ⟨Assoc.nodup_keys_ofPairs _, fun name hn => ?_⟩
  obtain ⟨m, hm, rfl⟩ := List.mem_map.1 hn
  obtain ⟨x, -, rfl⟩ := List.mem_map.1 (Assoc.mem_of_mem_ofPairs hm)
  exact Text.encodable_scrub x.1

section Wire
variable {p : Json → Prop} (hp : HoldsOfFrame p)
include hp

theorem everywhere_slots {slots : List (Text × Option Json)} (hn : ProperNames (Assoc.keys slots))
    (hv : ∀ s ∈ slots, ∀ j ∈ s.2, j.Everywhere p) : (Json.obj (Assoc.present slots)).Everywhere p := by
  have hsub := Assoc.keys_present_sublist slots
  refine ⟨hp.obj _ ⟨hn.1.sublist hsub, fun name hm => hn.2 name (hsub.subset hm)⟩, Json.everywhereMembers_iff.2 ?_⟩
  rintro ⟨name, j⟩ hm
  exact hv _ (Assoc.mem_present.1 hm) j rfl

theorem everywhere_arr {items : List Json} (h : ∀ j ∈ items, j.Everywhere p) : (Json.arr items).Everywhere p :=
  ⟨hp.arr items, Json.everywhereItems_iff.2 h⟩

theorem everywhere_routes {r : Routes} (h : ∀ t ∈ r.texts, p (.str t)) : r.toJson.Everywhere p := by
  simp only [Routes.texts, List.mem_append, List.mem_flatMap, or_imp, forall_and] at h
  obtain ⟨hr, hd⟩ := h
  rw [Routes.toJson_eq]
  refine everywhere_slots hp r.properNames ?_
  refine List.forall_mem_cons.2 ⟨everywhere_set (everywhere_arr hp ?_),
    List.forall_mem_singleton.2 (everywhere_slot ?_)⟩
  · intro j hj
    obtain ⟨x, hx, rfl⟩ := List.mem_map.1 hj
    have hn : [lit "match", lit "path"].Nodup ∧ ∀ name ∈ [lit "match", lit "path"], Text.Encodable name := by decide
    exact ⟨hp.obj _ hn, hr _ ⟨x, hx, by simp⟩, hr _ ⟨x, hx, by simp⟩, trivial⟩
  · intro t ht
    exact hd t (Option.mem_toList.2 ht)

theorem everywhere_bulk {b : Bulk} (h : ∀ i ∈ b.integers, p (.int i)) : b.toJson.Everywhere p := by
  simp only [Bulk.integers, List.mem_append, or_imp, forall_and] at h
  obtain ⟨hm, hw⟩ := h
  rw [Bulk.toJson_eq]
  refine everywhere_slots hp b.properNames ?_
  refine List.forall_mem_cons.2 ⟨everywhere_set (hp.bool b.enabled), List.forall_mem_cons.2 ⟨everywhere_slot ?_,
    List.forall_mem_singleton.2 (everywhere_slot ?_)⟩⟩
  · intro i h
    exact hm i (Option.mem_toList.2 (Option.mem_map_of_mem _ h))
  · intro i h
    exact hw i (Option.mem_toList.2 (Option.mem_map_of_mem _ h))

theorem everywhere_metadata {metadata : List (Text × Text)} (h : ∀ m ∈ metadata, p (.str m.2)) :
    (metadataJson metadata).Everywhere p := by
  refine ⟨hp.obj _ (properNames_metadataJson rfl), Json.everywhereMembers_iff.2 fun m hm => ?_⟩
  obtain ⟨x, hx, rfl⟩ := List.mem_map.1 (Assoc.mem_of_mem_ofPairs hm)
  exact h x hx

/-- What holds of the frame, of the strings and of the integers of an entry holds everywhere in its members, whether
the metadata is among them or not. -/
theorem everywhere_slotsWith {e : Entry} (ht : ∀ t ∈ e.texts, p (.str t)) (hi : ∀ i ∈ e.integers, p (.int i))
    {metadata? : Option Json} (hm : ∀ j ∈ metadata?, j = metadataJson e.metadata) :
    (Json.obj (Assoc.present (e.slotsWith metadata?))).Everywhere p := by
  simp only [Entry.texts, List.mem_append, or_imp, forall_and, List.forall_mem_cons, List.mem_flatMap,
    forall_exists_index, and_imp, Option.mem_toList] at ht
  obtain ⟨⟨⟨⟨⟨hpubsub, htopic, -⟩, hroute⟩, hroutes⟩, hdead⟩, hmetadata⟩ := ht
  refine everywhere_slots hp e.properNames ?_
  simp only [Entry.slotsWith, List.forall_mem_cons]
  refine ⟨everywhere_set hpubsub, everywhere_set htopic, everywhere_slot hroute, everywhere_slot ?_,
    everywhere_slot hdead, ?_, everywhere_slot ?_, List.forall_mem_nil _⟩
  · intro r h
    exact everywhere_routes hp fun t hx => hroutes t r h hx
  · intro j h
    rw [hm j h]
    exact everywhere_metadata hp fun m hx => hmetadata m.2 m hx (by simp)
  · intro b h
    refine everywhere_bulk hp fun i hx => ?_
    exact hi i (List.mem_flatMap.2 ⟨b, Option.mem_toList.2 h, hx⟩)

theorem everywhere_toJson {e : Entry} (ht : ∀ t ∈ e.texts, p (.str t)) (hi : ∀ i ∈ e.integers, p (.int i)) :
    e.toJson.Everywhere p := by
  rw [Entry.toJson_eq]
  refine everywhere_slotsWith hp ht hi ?_
  rintro _ ⟨⟩
  rfl

theorem everywhere_wire {e : Entry} (ht : ∀ t ∈ e.texts, p (.str t)) (hi : ∀ i ∈ e.integers, p (.int i)) :
    e.wire.Everywhere p := by
  rw [Entry.wire_eq]
  refine everywhere_slotsWith hp ht hi ?_
  split
  · exact nofun
  · rintro _ ⟨⟩
    rfl

theorem everywhere_document {es : List Entry} (ht : ∀ e ∈ es, ∀ t ∈ e.texts, p (.str t))
    (hi : ∀ e ∈ es, ∀ i ∈ e.integers, p (.int i)) : (document es).Everywhere p := by
  refine everywhere_arr hp fun j hj => ?_
  obtain ⟨e, he, rfl⟩ := List.mem_map.1 hj
  exact everywhere_wire hp (ht e he) (hi e he)

end Wire

theorem holdsOfFrame_readsBack : HoldsOfFrame Json.ReadsBack :=
  ⟨fun _ => trivial, fun _ => trivial, fun _ h => h.1⟩

/-- With integers that are not too long a manifest is parsed as it was printed, whatever its strings are. -/
theorem readable_document {es : List Entry} (hi : ∀ e ∈ es, ∀ i ∈ e.integers, ¬ Json.IsLong i) :
    (document es).Readable :=
  everywhere_document holdsOfFrame_readsBack (fun _ _ _ _ => trivial) hi

theorem carried_document {es : List Entry} (ht : ∀ e ∈ es, ∀ t ∈ e.texts, Text.Encodable t) :
    (document es).Carried :=
  everywhere_document ⟨fun _ => trivial, fun _ => trivial, fun _ h => h.2⟩ ht fun _ _ _ _ => trivial

/-! ## Elements of a document -/

/-- The element is an object and is read as the entry. -/
def Entry.IsReadFrom (e : Entry) (j : Json) : Prop := (∃ members, j = .obj members) ∧ readEntry j.toValue = .ok e

theorem elementOf_eq_ok_iff {index : Nat} {j : Json} {e : Entry} : elementOf index j = .ok e ↔ e.IsReadFrom j := by
  unfold Entry.IsReadFrom
  cases j with
  | obj members =>
    rw [elementOf, mapError_eq_ok_iff]
    exact (and_iff_right ⟨members, rfl⟩).symm
  | _ => exact iff_of_false nofun (by simp)

/-- The elements are read one by one, each at its place. -/
theorem elementsFrom_eq (index : Nat) (js : List Json) :
    elementsFrom index js = (js.zipIdx index).mapM fun p => elementOf p.2 p.1 := by
  induction js generalizing index with
  | nil => rfl
  | cons j js ih => rw [elementsFrom, ih, List.zipIdx_cons, List.mapM_cons]

theorem elementsFrom_eq_ok_iff {index : Nat} {js : List Json} {es : List Entry} :
    elementsFrom index js = .ok es ↔ List.Forall₂ (fun j e => e.IsReadFrom j) js es := by
  have hp := List.forall₂_map_left_iff (R := fun j e => Entry.IsReadFrom e j) (f := Prod.fst)
    (l := js.zipIdx index) (u := es)
  rw [List.zipIdx_map_fst] at hp
  rw [elementsFrom_eq, mapM_eq_ok_iff, hp]
  simp only [elementOf_eq_ok_iff]

theorem elementsFrom_wire {es : List Entry} (h : ∀ e ∈ es, readEntry e.wire.toValue = .ok e) (index : Nat) :
    elementsFrom index (es.map Entry.wire) = .ok es := by
  rw [elementsFrom_eq_ok_iff, List.forall₂_map_left_iff, List.forall₂_same]
  intro e he
  exact ⟨⟨_, e.wire_eq⟩, h e he⟩

/-! ## The document as octets -/

/-- The text of a manifest starts with two ASCII characters. -/
theorem print_document (es : List Entry) : ∃ b t, Json.print (document es) = 0x5B :: b :: t ∧ b ≠ 0 ∧ b < 0x80 := by
  cases es with
  | nil => exact ⟨_, _, rfl, by decide, by decide⟩
  | cons e es =>
    have hp : ∀ js, ∃ t, Json.printItems (e.wire :: js) = 0x7B :: t := by
      intro js
      rw [Entry.wire_eq]
      cases js with
      | nil => exact ⟨_, rfl⟩
      | cons j js => exact ⟨_, rfl⟩
    obtain ⟨t, hp⟩ := hp (es.map Entry.wire)
    refine ⟨0x7B, t ++ [0x5D], ?_, by decide, by decide⟩
    rw [document, List.map_cons, Json.print, hp]
    rfl

/-! ## Encoding and decoding -/

theorem exists_encode_decode {es : List Entry} (h : ∀ e ∈ es, e.Admitted)
    (ht : ∀ e ∈ es, ∀ t ∈ e.texts, Text.Encodable t) (hi : ∀ e ∈ es, ∀ i ∈ e.integers, ¬ Json.IsLong i) :
    ∃ bs, encode es = .ok bs ∧ decode (.bytes bs) = .ok es := by
  have hr := readable_document hi
  have hc := carried_document ht
  have hw : ∀ e ∈ es, readEntry e.wire.toValue = .ok e := by
    intro e he
    exact readEntry_wire (h e he) (Entry.encodable_names (ht e he))
  obtain ⟨b, t, hp, hb⟩ := print_document es
  obtain ⟨bs, he, hj⟩ := Json.read_bytes hr hc hp (by decide) hb
  refine ⟨bs, ?_, ?_⟩
  · simp only [encode, toText, Json.write_of_readable hr, bind, Except.bind, Except.mapError, he]
  · simp only [decode, hj]
    exact elementsFrom_wire hw 0

/-- Reading undoes encoding. Entries that are admitted, with strings that UTF-8 carries and no integer that is too long,
are encoded, the octets are read as the same entries, and what is read is encoded as the same octets. -/
theorem decode_encode {es : List Entry} (h : ∀ e ∈ es, e.Admitted) (ht : ∀ e ∈ es, ∀ t ∈ e.texts, Text.Encodable t)
    (hi : ∀ e ∈ es, ∀ i ∈ e.integers, ¬ Json.IsLong i) :
    ∃ bs, encode es = .ok bs ∧ decode (.bytes bs) = .ok es ∧
      ∀ es', decode (.bytes bs) = .ok es' → encode es' = .ok bs := by
  obtain ⟨bs, he, hd⟩ := exists_encode_decode h ht hi
  refine ⟨bs, he, hd, fun es' h' => ?_⟩
  cases hd.symm.trans h'
  exact he

/-- An entry with a route that is empty and one with a table without rules, and with characters that are escaped. -/
def mixedEntries : List Entry :=
  [{ pubsub := lit "pubsub", topic := lit "größe \"a\\b\"\n", route? := some [],
     metadata := [(lit "z", []), (lit "a", lit "\t€")], bulk? := some ⟨false, some ⟨1000, by decide⟩, none⟩ },
    { pubsub := lit "pubsub", topic := lit "orders", routes? := some {}, deadLetter? := some [] }]

theorem decode_encode_mixedEntries : (∀ e ∈ mixedEntries, e.Admitted) ∧
    (∀ e ∈ mixedEntries, ∀ t ∈ e.texts, Text.Encodable t) ∧
    (∀ e ∈ mixedEntries, ∀ i ∈ e.integers, ¬ Json.IsLong i) ∧
    ∃ bs, encode mixedEntries = .ok bs ∧ decode (.bytes bs) = .ok mixedEntries ∧
      ∀ es', decode (.bytes bs) = .ok es' → encode es' = .ok bs := by
  have h : ∀ e ∈ mixedEntries, e.Admitted := by
    simp only [mixedEntries, List.forall_mem_cons]
    exact ⟨rfl, rfl, nofun⟩
  have ht : ∀ e ∈ mixedEntries, ∀ t ∈ e.texts, Text.Encodable t := by decide
  have hi : ∀ e ∈ mixedEntries, ∀ i ∈ e.integers, ¬ Json.IsLong i := by
    simp only [mixedEntries, List.forall_mem_cons]
    refine ⟨fun i hi => ?_, nofun, nofun⟩
    rw [List.mem_singleton.1 hi]
    exact Json.not_isLong (by decide : 4 ≤ Json.maxDigits) (by decide)
  exact ⟨h, ht, hi, decode_encode h ht hi⟩

end PubSub.Manifest

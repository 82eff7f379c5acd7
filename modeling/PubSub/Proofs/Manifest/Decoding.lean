import PubSub.Proofs.Json.Parts
import PubSub.Proofs.Manifest.RoundTrip
/-!
# What is read from a document

An entry that is read from a document has no texts but those of the document, integers that can be written again, and is
admitted (`drawn_entry`). So all that keeps a manifest that was decoded from being served again is a string that UTF-8
does not carry (`decode_encode_iff`).
-/
namespace PubSub.Manifest

/-- What stands in a document: integers that can be written, and strings and names with `T`. -/
def Bears (T : Text → Prop) : Json → Prop
  | .int i => ¬ Json.IsLong i
  | .str t => T t
  | .obj members => ∀ name ∈ Assoc.keys members, T name
  | _ => True

/-- What `read` makes of documents in which `T` holds of all texts has `q`. -/
def Draws (T : Text → Prop) {α : Type} (read : Value → Checked α) (q : α → Prop) : Prop :=
  ∀ (j : Json) (a : α), j.Everywhere (Bears T) → read j.toValue = .ok a → q a

/-! ## Checks that have passed -/

theorem Checked.all_eq_ok_iff {α : Type} {cs : List (Checked α)} {as : List α} :
    Checked.all cs = .ok as ↔ cs = as.map .ok := by
  constructor
  · intro h
    induction cs generalizing as with
    | nil =>
      cases h
      rfl
    | cons c cs ih =>
      obtain ⟨⟨a, as'⟩, hb, rfl⟩ := map_eq_ok_iff.1 h
      obtain ⟨rfl, hcs⟩ := Checked.both_eq_ok_iff.1 hb
      rw [List.map_cons, ← ih hcs]
  · rintro rfl
    exact Checked.all_ok as

theorem exists_mem_of_all {α β : Type} {f : β → Checked α} {l : List β} {as : List α}
    (h : Checked.all (l.map f) = .ok as) {a : α} (ha : a ∈ as) : ∃ b ∈ l, f b = .ok a := by
  have hm : (.ok a : Checked α) ∈ as.map .ok := List.mem_map_of_mem ha
  rw [← Checked.all_eq_ok_iff.1 h] at hm
  exact List.mem_map.1 hm

theorem exists_mem_of_readItems {α : Type} {read : Value → Checked α} {items : List Value} {as : List α}
    (h : readItems read items = .ok as) {a : α} (ha : a ∈ as) : ∃ v ∈ items, read v = .ok a := by
  rw [readItems, List.mapIdx_eq_zipIdx_map] at h
  obtain ⟨⟨v, i⟩, hv, hr⟩ := exists_mem_of_all h ha
  exact ⟨v, List.fst_mem_of_mem_zipIdx hv, Checked.under_eq_ok_iff.1 hr⟩

/-! ## Fields -/

section Fields
variable {T : Text → Prop} {α : Type} {read : Value → Checked α} {q : α → Prop} {members : List (Text × Json)}
  {names : List Text}

theorem exists_mem_of_firstNamed? {name : Text} {v : Value}
    (h : firstNamed? names (Json.toEntries members) = some (name, v)) : ∃ m ∈ members, v = m.2.toValue := by
  rw [toEntries_eq, firstNamed?_fields] at h
  obtain ⟨n, -, hn⟩ := List.exists_of_findSome?_eq_some h
  obtain ⟨w, hw, he⟩ := Option.map_eq_some_iff.1 hn
  cases he
  obtain ⟨m, hm, he⟩ := List.mem_map.1 (Assoc.mem_of_find? hw)
  cases he
  exact ⟨m, hm, rfl⟩

/-- A field that stands under its name. -/
theorem Draws.named (h : Draws T read q) (hm : Json.EverywhereMembers (Bears T) members) {name : Text} {v : Value}
    (hn : firstNamed? names (Json.toEntries members) = some (name, v)) {a : α}
    (ha : (read v).under (.name name) = .ok a) : q a := by
  obtain ⟨m, hmem, rfl⟩ := exists_mem_of_firstNamed? hn
  exact h _ a (Json.everywhereMembers_iff.1 hm m hmem) (Checked.under_eq_ok_iff.1 ha)

theorem Draws.required (h : Draws T read q) (hm : Json.EverywhereMembers (Bears T) members) {a : α}
    (ha : readRequired names read (Json.toEntries members) = .ok a) : q a := by
  unfold readRequired at ha
  split at ha
  · next hn => exact h.named hm hn ha
  · cases Checked.under_eq_ok_iff.1 ha

theorem Draws.defaulted (h : Draws T read q) {absent : α} (h0 : q absent)
    (hm : Json.EverywhereMembers (Bears T) members) {a : α}
    (ha : readDefaulted names absent read (Json.toEntries members) = .ok a) : q a := by
  unfold readDefaulted at ha
  split at ha
  · next hn => exact h.named hm hn ha
  · cases ha
    exact h0

/-- An optional field that is absent is not set. -/
theorem Draws.optional (h : Draws T read q) (hm : Json.EverywhereMembers (Bears T) members) {a? : Option α}
    (ha : readDefaulted names none (readOptional read) (Json.toEntries members) = .ok a?) : ∀ a ∈ a?, q a := by
  have ho : Draws T (readOptional read) fun a? => ∀ a ∈ a?, q a := by
    intro j a? hj ha
    unfold readOptional at ha
    split at ha
    · cases ha
      exact nofun
    · obtain ⟨b, hb, rfl⟩ := map_eq_ok_iff.1 ha
      rintro _ ⟨⟩
      exact h j b hj hb
  have hn : ∀ a ∈ (none : Option α), q a := nofun
  exact ho.defaulted hn hm ha

end Fields

/-! ## Integers -/

theorem natAbs_lt_of_parse {t : Text} {i : Int} (h : IntegerText.parse t = .ok i) :
    ∃ k ≤ IntegerText.sizeLimit, i.natAbs < 10 ^ k := by
  unfold IntegerText.parse at h
  split at h
  · cases h
  · split at h
    · next hp =>
      cases h
      obtain ⟨u, -, hp⟩ := Option.bind_eq_some_iff.1 hp
      unfold IntegerText.plain? at hp
      split at hp
      · next hn =>
        split at hp
        · next hl =>
          cases hp
          exact ⟨_, hl.2, Numeral.natAbs_toInt_lt hn⟩
        · cases hp
      · cases hp
    · cases h

theorem not_isLong_of_fitsWord {i : Int} (h : FitsWord i) : ¬ Json.IsLong i := by
  obtain ⟨h₁, h₂⟩ := h
  exact Json.not_isLong (by decide : 20 ≤ Json.maxDigits) (by omega)

theorem drawn_integer {T : Text → Prop} : Draws T readInteger fun i => ¬ Json.IsLong i := by
  intro j i hj h
  cases j with
  | int k =>
    cases h
    exact hj
  | bool b =>
    cases h
    exact not_isLong_of_fitsWord (by cases b <;> decide)
  | float x =>
    rw [Json.toValue, readInteger] at h
    split at h
    · next hx =>
      cases h
      obtain ⟨-, hl, hu⟩ := integerOfNumber_eq_ok_iff.1 hx
      exact not_isLong_of_fitsWord ⟨Int.le_of_lt hl, hu⟩
    · cases h
  | str t =>
    rw [Json.toValue, readInteger] at h
    split at h
    · unfold integerOfText at h
      split at h
      · next ht =>
        cases h
        obtain ⟨k, hk, hi⟩ := natAbs_lt_of_parse ht
        exact Json.not_isLong hk hi
      · cases h
    · cases h
  | null => cases h
  | arr items => cases h
  | obj members => cases h

theorem drawn_atLeast {T : Text → Prop} (least : Int) :
    Draws T (readAtLeast least) fun i => ¬ Json.IsLong i.val := by
  intro j i hj h
  unfold readAtLeast at h
  split at h
  · cases h
  · next hi =>
    split at h
    · cases h
      exact drawn_integer j _ hj hi
    · cases h

/-! ## Records -/

section Records
variable {T : Text → Prop}

theorem drawn_text : Draws T readText T := by
  intro j t hj h
  cases j with
  | str s =>
    cases h
    exact hj
  | _ => cases h

theorem drawn_rule : Draws T readRule fun x => T x.condition ∧ T x.path := by
  intro j x hj h
  cases j with
  | obj members =>
    obtain ⟨⟨condition, path⟩, hb, rfl⟩ := map_eq_ok_iff.1 h
    obtain ⟨hc, hx⟩ := Checked.both_eq_ok_iff.1 hb
    exact ⟨drawn_text.required hj.2 hc, drawn_text.required hj.2 hx⟩
  | _ => cases h

theorem drawn_rules : Draws T readRules fun rules => ∀ x ∈ rules, T x.condition ∧ T x.path := by
  intro j rules hj h x hx
  cases j with
  | arr items =>
    obtain ⟨v, hv, hr⟩ := exists_mem_of_readItems h hx
    rw [toValues_eq] at hv
    obtain ⟨k, hk, rfl⟩ := List.mem_map.1 hv
    exact drawn_rule k x (Json.everywhereItems_iff.1 hj.2 k hk) hr
  | _ => cases h

theorem drawn_routes : Draws T readRoutes fun r => ∀ t ∈ r.texts, T t := by
  intro j r hj h
  cases j with
  | obj members =>
    obtain ⟨⟨rules, default?⟩, hb, rfl⟩ := map_eq_ok_iff.1 h
    obtain ⟨hr, hd⟩ := Checked.both_eq_ok_iff.1 hb
    have hr := drawn_rules.defaulted (List.forall_mem_nil _) hj.2 hr
    have hd := drawn_text.optional hj.2 hd
    intro t ht
    rcases List.mem_append.1 ht with ht | ht
    · obtain ⟨x, hx, ht⟩ := List.mem_flatMap.1 ht
      obtain ⟨hc, hp⟩ := hr x hx
      simp only [List.mem_cons, List.not_mem_nil, or_false] at ht
      rcases ht with rfl | rfl
      · exact hc
      · exact hp
    · exact hd t (Option.mem_toList.1 ht)
  | _ => cases h

theorem drawn_bulk : Draws T readBulk fun b => ∀ i ∈ b.integers, ¬ Json.IsLong i := by
  intro j b hj h i hi
  cases j with
  | obj members =>
    obtain ⟨-, hm, hw⟩ := readBulk_eq_ok_iff.1 h
    have hm := (drawn_atLeast 1).optional hj.2 hm
    have hw := (drawn_atLeast 0).optional hj.2 hw
    rcases List.mem_append.1 hi with hi | hi
    · obtain ⟨n, hn, rfl⟩ := Option.map_eq_some_iff.1 (Option.mem_toList.1 hi)
      exact hm n hn
    · obtain ⟨n, hn, rfl⟩ := Option.map_eq_some_iff.1 (Option.mem_toList.1 hi)
      exact hw n hn
  | _ => cases h

theorem drawn_metadata :
    Draws T readMetadata fun metadata => (Assoc.keys metadata).Nodup ∧ ∀ m ∈ metadata, T m.1 ∧ T m.2 := by
  intro j metadata hj h
  cases j with
  | obj members =>
    obtain ⟨pairs, ha, rfl⟩ := map_eq_ok_iff.1 h
    refine ⟨Assoc.nodup_keys_ofPairs pairs, fun m hm => ?_⟩
    obtain ⟨pair, hp, hr⟩ := exists_mem_of_all ha (Assoc.mem_of_mem_ofPairs hm)
    rw [toEntries_eq, List.map_map] at hp
    obtain ⟨x, hx, rfl⟩ := List.mem_map.1 hp
    obtain ⟨hn, hv⟩ := Checked.both_eq_ok_iff.1 hr
    have hn := Checked.under_eq_ok_iff.1 (Checked.under_eq_ok_iff.1 hn)
    have hv := Checked.under_eq_ok_iff.1 hv
    refine ⟨?_, drawn_text x.2 m.2 (Json.everywhereMembers_iff.1 hj.2 x hx) hv⟩
    rw [← Except.ok.inj hn]
    exact hj.1 x.1 (List.mem_map_of_mem hx)
  | _ => cases h

/-- What is read as an entry is admitted, can be written again, and has no other texts than the document. -/
theorem drawn_entry : Draws T readEntry fun e =>
    e.Admitted ∧ (∀ i ∈ e.integers, ¬ Json.IsLong i) ∧ ∀ t ∈ e.texts, T t := by
  intro j e hj h
  cases j with
  | obj members =>
    obtain ⟨hd, hpubsub, htopic, hroute, hroutes, hdead, hmetadata, hbulk⟩ := readEntry_eq_ok_iff.1 h
    have hpubsub := drawn_text.required hj.2 hpubsub
    have htopic := drawn_text.required hj.2 htopic
    have hroute := drawn_text.optional hj.2 hroute
    have hroutes := drawn_routes.optional hj.2 hroutes
    have hdead := drawn_text.optional hj.2 hdead
    have hempty : (Assoc.keys ([] : List (Text × Text))).Nodup ∧ ∀ m ∈ ([] : List (Text × Text)), T m.1 ∧ T m.2 :=
      ⟨List.nodup_nil, List.forall_mem_nil _⟩
    have hmetadata := drawn_metadata.defaulted hempty hj.2 hmetadata
    have hbulk := drawn_bulk.optional hj.2 hbulk
    refine ⟨Entry.admitted_iff.2 ⟨hd, hmetadata.1⟩, fun i hi => ?_, ?_⟩
    · obtain ⟨b, hb, hi⟩ := List.mem_flatMap.1 hi
      exact hbulk b (Option.mem_toList.1 hb) i hi
    · simp only [Entry.texts, List.mem_append, or_imp, forall_and, List.forall_mem_cons, List.mem_flatMap,
        forall_exists_index, and_imp, Option.mem_toList]
      refine ⟨⟨⟨⟨⟨hpubsub, htopic, List.forall_mem_nil _⟩, hroute⟩, fun t r hr => hroutes r hr t⟩, hdead⟩, ?_⟩
      intro t m hm ht
      obtain ⟨hn, hv⟩ := hmetadata.2 m hm
      simp only [List.mem_cons, List.not_mem_nil, or_false] at ht
      rcases ht with rfl | rfl
      · exact hn
      · exact hv
  | _ => cases h

end Records

/-! ## Documents -/

/-- The entries of a manifest are read from a document, whose texts they have. -/
theorem drawn_ofJson {T : Text → Prop} {j : Json} {es : List Entry} (hj : j.Everywhere (Bears T))
    (h : ofJson j = .ok es) :
    ∀ e ∈ es, e.Admitted ∧ (∀ i ∈ e.integers, ¬ Json.IsLong i) ∧ ∀ t ∈ e.texts, T t := by
  unfold ofJson at h
  split at h
  · intro e he
    obtain ⟨k, hk, -, hr⟩ := exists_of_mem_right (elementsFrom_eq_ok_iff.1 h) he
    exact drawn_entry k e (Json.everywhereItems_iff.1 hj.2 k hk) hr
  · cases h

theorem decode_eq_ok_iff {v : Value} {es : List Entry} :
    decode v = .ok es ↔ ∃ j, Json.read v = .ok j ∧ ofJson j = .ok es := by
  unfold decode
  split
  · next j hj =>
    constructor
    · intro h
      exact ⟨j, hj, h⟩
    · rintro ⟨k, hk, h⟩
      cases hj.symm.trans hk
      exact h
  · next hj =>
    refine ⟨nofun, ?_⟩
    rintro ⟨k, hk, -⟩
    cases hj.symm.trans hk

/-! ## Served again -/

/-- What is read from a text or from octets is admitted and can be written again. -/
theorem drawn_decode {v : Value} {es : List Entry} (h : decode v = .ok es) :
    ∀ e ∈ es, e.Admitted ∧ ∀ i ∈ e.integers, ¬ Json.IsLong i := by
  obtain ⟨j, hj, ho⟩ := decode_eq_ok_iff.1 h
  have hs : j.Everywhere (Bears fun _ => True) := by
    refine Json.Everywhere.mono (fun k hk => ?_) j (Json.short_read hj)
    cases k with
    | int i => exact hk
    | obj members => exact fun _ _ => trivial
    | _ => trivial
  intro e he
  obtain ⟨ha, hi, -⟩ := drawn_ofJson hs ho e he
  exact ⟨ha, hi⟩

/-- Entries that are read back from their octets have no texts but those of the octets, and UTF-8 carries these. -/
theorem encodable_of_encode_decode {es : List Entry} {bs : Bytes} (hi : ∀ e ∈ es, ∀ i ∈ e.integers, ¬ Json.IsLong i)
    (he : encode es = .ok bs) (hd : decode (.bytes bs) = .ok es) : ∀ e ∈ es, ∀ t ∈ e.texts, Text.Encodable t := by
  have hr := readable_document hi
  have hb : Text.encodeUtf8 (Json.print (document es)) = .ok bs := by
    obtain ⟨t, ht, hb⟩ := bind_eq_ok_iff.1 he
    rw [toText, Json.write_of_readable hr] at ht
    cases ht
    exact mapError_eq_ok_iff.1 hb
  have hc := Json.carried_of_print _ (Text.encodeUtf8_isOk_iff.1 ⟨bs, hb⟩)
  -- The octets are read as the document that was written, and the entries from that document.
  obtain ⟨a, t, hp, ha⟩ := print_document es
  obtain ⟨bs', hb', hj⟩ := Json.read_bytes hr hc hp (by decide) ha
  cases hb.symm.trans hb'
  obtain ⟨j, hj', ho⟩ := decode_eq_ok_iff.1 hd
  cases hj.symm.trans hj'
  have hs : (document es).Everywhere (Bears Text.Encodable) := by
    refine Json.Everywhere.mono (fun k hk => ?_) _ (Json.Everywhere.and _ hr hc)
    cases k with
    | int i => exact hk.1
    | str t => exact hk.2
    | obj members => exact hk.2
    | _ => trivial
  intro e hm
  exact (drawn_ofJson hs ho e hm).2.2

/-- What is decoded can be served again, and is read as the same entries then, exactly if UTF-8 carries all their
strings. An escape may stand for one half of a surrogate pair, which it does not carry. -/
theorem decode_encode_iff {v : Value} {es : List Entry} (h : decode v = .ok es) :
    (∃ bs, encode es = .ok bs ∧ decode (.bytes bs) = .ok es) ↔ ∀ e ∈ es, ∀ t ∈ e.texts, Text.Encodable t := by
  have hm := drawn_decode h
  constructor
  · rintro ⟨bs, he, hd⟩
    exact encodable_of_encode_decode (fun e hx => (hm e hx).2) he hd
  · intro ht
    exact exists_encode_decode (fun e hx => (hm e hx).1) ht fun e hx => (hm e hx).2

/-- The text of a manifest with one entry, in which `name` stands between the quotes of the pub/sub name. -/
def oneTopic (name : Text) : Text := lit "[\x7b\"pubsubname\":\"" ++ (name ++ lit "\",\"topic\":\"orders\"\x7d]")

/-- The object of one topic is read, whatever follows it. -/
theorem yields_topic {name s : Text} (h : ∀ start rest, Json.scanString start (name ++ 0x22 :: rest) = .ok (s, rest))
    (rest : Text) :
    Json.Yields (Json.scanValue (lit "\x7b\"pubsubname\":\"" ++ (name ++ (lit "\",\"topic\":\"orders\"\x7d" ++ rest))))
      (.obj [(lit "pubsubname", .str s), (lit "topic", .str (lit "orders"))]) rest := by
  have ht : Json.Yields (Json.scanMembers (lit "\"topic\":\"orders\"\x7d" ++ rest))
      [(lit "topic", .str (lit "orders"))] rest :=
    Json.scanMembers_last (Json.scanString_escape _ (lit "topic") _)
      (Json.scanValue_string (Json.scanString_escape _ (lit "orders") _))
  have hm : Json.Yields
      (Json.scanMembers (lit "\"pubsubname\":\"" ++ (name ++ (lit "\",\"topic\":\"orders\"\x7d" ++ rest))))
      [(lit "pubsubname", .str s), (lit "topic", .str (lit "orders"))] rest :=
    Json.scanMembers_cons (Json.scanString_escape _ (lit "pubsubname") _) (Json.scanValue_string (h _ _)) ht
  exact Json.scanValue_obj (by decide) (by decide) hm

theorem decode_oneTopic {name s : Text}
    (h : ∀ start rest, Json.scanString start (name ++ 0x22 :: rest) = .ok (s, rest)) :
    decode (.text (oneTopic name)) = .ok [{ pubsub := s, topic := lit "orders" }] := by
  have ha : Json.Yields (Json.scanValue (oneTopic name))
      (.arr [.obj [(lit "pubsubname", .str s), (lit "topic", .str (lit "orders"))]]) [] :=
    Json.scanValue_arr (by decide) (by decide) (Json.scanItems_last (yields_topic h [0x5D]))
  have hm : (oneTopic name).head? ≠ some 0xFEFF := by
    change some 0x5B ≠ some 0xFEFF
    decide
  exact decode_eq_ok_iff.2 ⟨_, Json.read_text_of_yields (Json.skipBlank_cons (by decide) _) hm ha, rfl⟩

theorem decode_encode_iff_oneTopic : decode (.text (oneTopic (lit "größe"))) =
      .ok [{ pubsub := lit "größe", topic := lit "orders" }] ∧
    ((∃ bs, encode [{ pubsub := lit "größe", topic := lit "orders" }] = .ok bs ∧
      decode (.bytes bs) = .ok [{ pubsub := lit "größe", topic := lit "orders" }]) ↔
      ∀ e ∈ [({ pubsub := lit "größe", topic := lit "orders" } : Entry)], ∀ t ∈ e.texts, Text.Encodable t) := by
  have h := decode_oneTopic fun start rest => Json.scanString_escape start (lit "größe") rest
  exact ⟨h, decode_encode_iff h⟩

/-- The escape of one half of a surrogate pair is decoded, and what it stands for is not encoded. -/
theorem half_decoded_not_encoded : decode (.text (oneTopic (lit "\\ud800"))) =
      .ok [{ pubsub := [0xD800], topic := lit "orders" }] ∧
    ∀ bs, encode [{ pubsub := [0xD800], topic := lit "orders" }] ≠ .ok bs := by
  constructor
  · apply decode_oneTopic
    intro start rest
    have hx : Json.hexQuad? 0x64 0x38 0x30 0x30 = some 0xD800 := by decide
    have hs := Json.scanString_unicodeEscape start hx (List.cons_ne_nil 0x22 rest) (Json.lowEscape?_quote rest)
    rw [show Json.scanString start (0x22 :: rest) = .ok ([], rest) from Json.scanString_escape start [] rest] at hs
    exact hs
  · intro bs h
    cases h

end PubSub.Manifest

import PubSub.Proofs.Handler.Failure
import PubSub.Proofs.Json.Heads
import PubSub.Proofs.Value.RoundTrip
/-!
# Metadata as a mapping and as JSON text

Metadata that is given as a mapping and metadata that is given as the JSON text of the mapping are read as the same
texts, so a mark declares the same with the one and with the other. Owners whose marks differ in no more than that come
to the same in discovery (`discover_restated`). To see this, a relation of marks is carried over from owners to what is
visited on them.
-/
namespace PubSub

/-! ## Reading metadata -/

/-- The metadata that a value stands for: none, the texts of a mapping, or those of the object that a text is read
as. -/
inductive Value.StandsFor : Value → List (Text × Text) → Prop
  | none : StandsFor .none []
  | blank {t : Text} (h : Text.Blank t) : StandsFor (.text t) []
  | text {t : Text} {pairs : List (Text × Text)} (hb : ¬ Text.Blank t)
    (h : Json.read (.text t) = .ok (.obj (pairs.map fun (name, value) => (name, .str value)))) :
    StandsFor (.text t) pairs
  | mapping {v : Value} {pairs : List (Text × Text)}
    (h : v.entries? = some (pairs.map fun (name, value) => (.text name, .text value))) : StandsFor v pairs

/-- A mapping of either sort with these texts in this order, each name once. -/
structure Value.IsMappingOf (m : Value) (pairs : List (Text × Text)) : Prop where
  names : (Assoc.keys pairs).Nodup
  entries : m.entries? = some (pairs.map fun (name, value) => (.text name, .text value))

/-- A mapping with these texts, or a JSON text of one, however that is written. -/
inductive Value.Gives (pairs : List (Text × Text)) : Value → Prop
  | mapping {m : Value} (h : m.IsMappingOf pairs) : Gives pairs m
  | text {t : Text} {j : Json} (ht : Json.read (.text t) = .ok j) (hj : j.toValue.IsMappingOf pairs) :
    Gives pairs (.text t)

section Reading
variable {m : Value} {pairs : List (Text × Text)}

theorem Json.readable_texts (h : (Assoc.keys pairs).Nodup) :
    (Json.obj (pairs.map fun p => (p.1, .str p.2))).Readable := by
  refine ⟨?_, everywhereMembers_iff.2 ?_⟩
  · rwa [ReadsBack, Assoc.keys, List.map_map]
  · intro x hx
    obtain ⟨p, -, rfl⟩ := List.mem_map.1 hx
    trivial

/-- A mapping is written as a text that gives the same. -/
theorem Value.IsMappingOf.exists_toJsonText (h : m.IsMappingOf pairs) :
    ∃ t, m.toJsonText = .ok t ∧ (Value.text t).Gives pairs := by
  have hr := Json.readable_texts h.names
  have hv := Manifest.toValue_texts pairs
  have hg : (Value.text (Json.obj (pairs.map fun p => (p.1, .str p.2))).print).Gives pairs := by
    refine .text (Json.read_print hr) ⟨h.names, ?_⟩
    rw [hv]
    rfl
  have ht := Json.toJsonText_toValue hr.short
  have he := h.entries
  rw [hv] at ht
  cases m with
  | mapping entries | view entries =>
    cases he
    exact ⟨_, ht, hg⟩
  | _ => cases he

namespace Handler

theorem pairOf_eq_ok_iff {entry : Value × Value} {p : Text × Text} :
    pairOf entry = .ok p ↔ entry = (.text p.1, .text p.2) := by
  constructor
  · intro h
    unfold pairOf at h
    split at h
    · cases h
      rfl
    · cases h
  · rintro rfl
    rfl

theorem pairsOf_eq_ok_iff :
    pairsOf m = .ok pairs ↔ m.entries? = some (pairs.map fun (name, value) => (.text name, .text value)) := by
  unfold pairsOf
  cases m.entries? with
  | none => exact ⟨nofun, nofun⟩
  | some entries =>
    simp only [mapM_eq_ok_iff, pairOf_eq_ok_iff, Option.some.injEq]
    rw [← List.forall₂_map_right_iff (R := Eq) (f := fun p : Text × Text => (Value.text p.1, Value.text p.2)),
      List.forall₂_eq_eq_eq]

/-- A document has texts for entries if it is an object with these texts. -/
theorem entries?_toValue_iff {j : Json} :
    j.toValue.entries? = some (pairs.map fun (name, value) => (.text name, .text value)) ↔
      j = .obj (pairs.map fun (name, value) => (name, .str value)) := by
  cases j with
  | obj members =>
    simp only [Json.toValue, Value.entries?, Manifest.toEntries_eq, Option.some.injEq, Json.obj.injEq]
    induction members generalizing pairs with
    | nil => cases pairs <;> simp
    | cons member members ih =>
      obtain ⟨name, j⟩ := member
      cases pairs with
      | nil => simp
      | cons p pairs =>
        have hj : j.toValue = .text p.2 ↔ j = .str p.2 := by cases j <;> simp [Json.toValue]
        simpa [hj] using fun _ _ => ih
  | _ => constructor <;> rintro ⟨⟩

theorem readMetadata_eq_ok_iff {handler : Text} : readMetadata handler m = .ok pairs ↔ m.StandsFor pairs := by
  rw [readMetadata, mapError_eq_ok_iff]
  constructor
  · intro h
    cases m with
    | none =>
      cases h
      exact .none
    | text t =>
      rw [metadataOf] at h
      split at h
      · next hb =>
        cases h
        exact .blank hb
      · next hb =>
        obtain ⟨j, hj, h⟩ := bind_eq_ok_iff.1 h
        obtain rfl := entries?_toValue_iff.1 (pairsOf_eq_ok_iff.1 h)
        exact .text hb (mapError_eq_ok_iff.1 hj)
    | _ => exact .mapping (pairsOf_eq_ok_iff.1 h)
  · intro h
    cases h with
    | none => rfl
    | blank hb => exact if_pos hb
    | text hb h =>
      rw [metadataOf, if_neg hb, bind_eq_ok_iff]
      exact ⟨_, mapError_eq_ok_iff.2 h, pairsOf_eq_ok_iff.2 (entries?_toValue_iff.2 rfl)⟩
    | mapping h =>
      cases m with
      | mapping entries | view entries => exact pairsOf_eq_ok_iff.2 h
      | _ => cases h

/-- Metadata that stands for no texts is refused by its handler and by itself. -/
theorem readMetadata_cases (handler : Text) (m : Value) :
    (∃ pairs, m.StandsFor pairs ∧ readMetadata handler m = .ok pairs) ∨
    ∃ reason, (∀ pairs, ¬ m.StandsFor pairs) ∧
      readMetadata handler m = .error (.unreadableMetadata handler m reason) := by
  cases h : metadataOf m with
  | ok pairs =>
    have hr : readMetadata handler m = .ok pairs := by
      rw [readMetadata, h]
      rfl
    exact .inl ⟨pairs, readMetadata_eq_ok_iff.1 hr, hr⟩
  | error problem =>
    have hr : readMetadata handler m = .error (.unreadableMetadata handler m problem.message) := by
      rw [readMetadata, h]
      rfl
    refine .inr ⟨problem.message, fun pairs hs => ?_, hr⟩
    cases hr.symm.trans (readMetadata_eq_ok_iff.2 hs)

/-- What is an object is not blank. -/
theorem standsFor_of_gives (h : m.Gives pairs) : m.StandsFor pairs := by
  cases h with
  | mapping h => exact .mapping h.entries
  | @text t j ht hj =>
    obtain rfl := entries?_toValue_iff.1 hj.entries
    refine .text (fun hb => ?_) ht
    exact absurd (hb _ (Json.brace_mem_of_parse_obj (Json.parse_of_read_text ht))) (by decide)

theorem readMetadata_of_gives (h : m.Gives pairs) (handler : Text) : readMetadata handler m = .ok pairs :=
  readMetadata_eq_ok_iff.2 (standsFor_of_gives h)

end Handler

end Reading

/-! ## Marks in relation -/

section Relation
variable (R : TopicMark → TopicMark → Prop)

inductive Mark.Rel : Mark → Mark → Prop
  | topic {t u : TopicMark} (h : R t u) : Rel (.topic t) (.topic u)
  | stray (kind : Text) : Rel (.stray kind) (.stray kind)

structure Handler.Rel (h k : Handler) : Prop where
  marks : List.Forall₂ (Mark.Rel R) h.marks k.marks
  bulk : h.bulk? = k.bulk?

inductive Attribute.Rel : Attribute → Attribute → Prop
  | handler {h k : Handler} (hk : Handler.Rel R h k) : Rel (.handler h) (.handler k)
  | wrapped {h k : Handler} (hk : Handler.Rel R h k) : Rel (.wrapped h) (.wrapped k)
  | computed {h k : Handler} (hk : Handler.Rel R h k) : Rel (.computed h) (.computed k)
  | failing (error : Raised) : Rel (.failing error) (.failing error)
  | plain : Rel .plain .plain

/-- The same names in the same order, with attributes in relation. -/
def Attribute.RelNamed (s t : List (Text × Attribute)) : Prop :=
  List.Forall₂ (fun a b => a.1 = b.1 ∧ Attribute.Rel R a.2 b.2) s t

/-- Owners that differ in their marks alone, and where marks stand in the same place, they are in relation. -/
structure Owner.Rel (o p : Owner) : Prop where
  name : o.name = p.name
  isInstance : o.isInstance = p.isInstance
  own : Attribute.RelNamed R o.own p.own
  inherited : List.Forall₂ (Attribute.RelNamed R) o.inherited p.inherited

inductive Visit.Rel : Visit → Visit → Prop
  | mark (handler : Text) {m n : Mark} (h : Mark.Rel R m n) (bulk? : Option BulkSettings) :
    Rel (.mark handler m bulk?) (.mark handler n bulk?)
  | failing (error : Raised) : Rel (.failing error) (.failing error)

/-- Readings that fail with the same error, or come to handlers in relation or to none. -/
inductive Handler.RelRead : Except Raised (Option Handler) → Except Raised (Option Handler) → Prop
  | ok {h? k? : Option Handler} (hk : Option.Rel (Handler.Rel R) h? k?) : RelRead (.ok h?) (.ok k?)
  | error (e : Raised) : RelRead (.error e) (.error e)

end Relation

section Relation
variable {R : TopicMark → TopicMark → Prop}

theorem Attribute.Rel.bare {a b : Attribute} (h : Attribute.Rel R a b) : Option.Rel (Handler.Rel R) a.bare b.bare := by
  cases h with
  | handler hk => exact .some hk
  | _ => exact .none

theorem Attribute.Rel.onClass {a b : Attribute} (h : Attribute.Rel R a b) :
    Option.Rel (Handler.Rel R) a.onClass b.onClass := by
  cases h with
  | handler hk | wrapped hk => exact .some hk
  | _ => exact .none

theorem Attribute.Rel.onInstance {a b : Attribute} (h : Attribute.Rel R a b) :
    Handler.RelRead R a.onInstance b.onInstance := by
  cases h with
  | handler hk | wrapped hk | computed hk => exact .ok (.some hk)
  | failing error =>
    rw [Attribute.onInstance]
    split
    · exact .ok .none
    · exact .error error
  | plain => exact .ok .none

theorem Attribute.Rel.isComputed_eq {a b : Attribute} (h : Attribute.Rel R a b) : a.IsComputed = b.IsComputed := by
  cases h <;> rfl

theorem Attribute.RelNamed.find? {s t : List (Text × Attribute)} (h : Attribute.RelNamed R s t) (name : Text) :
    Option.Rel (Attribute.Rel R) (Assoc.find? name s) (Assoc.find? name t) := by
  induction h with
  | nil => exact .none
  | cons hab _ ih =>
    obtain ⟨hn, ha⟩ := hab
    rw [Assoc.find?, Assoc.find?, hn]
    split
    · exact .some ha
    · exact ih

theorem Attribute.RelNamed.keys_eq {s t : List (Text × Attribute)} (h : Attribute.RelNamed R s t) :
    Assoc.keys s = Assoc.keys t := by
  induction h with
  | nil => rfl
  | cons hab _ ih => exact congrArg₂ List.cons hab.1 ih

theorem Attribute.findFirst?_rel {ss ts : List (List (Text × Attribute))}
    (h : List.Forall₂ (Attribute.RelNamed R) ss ts) (name : Text) :
    Option.Rel (Attribute.Rel R) (ss.findSome? (Assoc.find? name)) (ts.findSome? (Assoc.find? name)) := by
  induction h with
  | nil => exact .none
  | @cons s t _ _ hst _ ih =>
    have hf := hst.find? name
    rw [List.findSome?_cons, List.findSome?_cons]
    generalize Assoc.find? name s = a?, Assoc.find? name t = b? at hf
    cases hf with
    | none => exact ih
    | some ha => exact .some ha

section Owner
variable {o p : Owner} (h : Owner.Rel R o p)
include h

theorem Owner.Rel.findInherited? (name : Text) :
    Option.Rel (Attribute.Rel R) (o.findInherited? name) (p.findInherited? name) :=
  Attribute.findFirst?_rel h.inherited name

theorem Owner.Rel.names_eq : o.names = p.names := by
  have hk : (o.own :: o.inherited).map Assoc.keys = (p.own :: p.inherited).map Assoc.keys := by
    rw [← List.forall₂_eq_eq_eq, List.forall₂_map_left_iff, List.forall₂_map_right_iff]
    exact List.Forall₂.cons h.own.keys_eq (h.inherited.imp fun s t hst => hst.keys_eq)
  rw [Owner.names, Owner.names, List.flatMap_def, List.flatMap_def, hk]

theorem Owner.Rel.readInherited (name : Text) : Handler.RelRead R (o.readInherited name) (p.readInherited name) := by
  have hf := h.findInherited? name
  unfold Owner.readInherited
  generalize o.findInherited? name = a?, p.findInherited? name = b? at hf
  cases hf with
  | none => exact .ok .none
  | some ha =>
    dsimp only
    rw [h.isInstance]
    split
    · exact ha.onInstance
    · exact .ok ha.onClass

theorem Owner.Rel.anyComputed_eq (name : Text) :
    (o.findInherited? name).any Attribute.IsComputed = (p.findInherited? name).any Attribute.IsComputed := by
  have hf := h.findInherited? name
  generalize o.findInherited? name = a?, p.findInherited? name = b? at hf
  cases hf with
  | none => rfl
  | some ha => exact ha.isComputed_eq

theorem Owner.Rel.read (name : Text) : Handler.RelRead R (o.read name) (p.read name) := by
  have hf := h.own.find? name
  unfold Owner.read
  generalize Assoc.find? name o.own = a?, Assoc.find? name p.own = b? at hf
  cases hf with
  | none => exact h.readInherited name
  | some ha =>
    dsimp only
    rw [h.anyComputed_eq name]
    split
    · exact h.readInherited name
    · exact .ok ha.bare

theorem Owner.Rel.visitsOf (name : Text) : List.Forall₂ (Visit.Rel R) (o.visitsOf name) (p.visitsOf name) := by
  have hr := h.read name
  unfold Owner.visitsOf
  generalize o.read name = x, p.read name = y at hr
  cases hr with
  | error e => exact .cons (.failing e) .nil
  | ok hk =>
    cases hk with
    | none => exact .nil
    | some hk =>
      dsimp only
      rw [h.name, hk.bulk, List.forall₂_map_left_iff, List.forall₂_map_right_iff]
      exact hk.marks.imp fun m n hm => .mark _ hm _

/-- What is visited on the owners is in relation too. -/
theorem Owner.Rel.visits : List.Forall₂ (Visit.Rel R) o.visits p.visits := by
  rw [Owner.visits, Owner.visits, h.names_eq]
  refine List.rel_flatMap (R := Eq) (List.forall₂_same.2 fun _ _ => rfl) ?_
  rintro name _ rfl
  exact h.visitsOf name

end Owner

end Relation

/-! ## Marks that give the same metadata -/

/-- The same mark, but for its metadata, which may be given in another way. -/
structure TopicMark.Restates (t u : TopicMark) : Prop where
  others : u = { t with metadata := u.metadata }
  metadata : t.metadata = u.metadata ∨ ∃ pairs, t.metadata.Gives pairs ∧ u.metadata.Gives pairs

theorem TopicMark.Restates.declaration?_eq {t u : TopicMark} (h : t.Restates u) (res : Resolver) (handler : Text)
    (bulk? : Option BulkSettings) : t.declaration? res handler bulk? = u.declaration? res handler bulk? := by
  obtain ⟨ho, hm⟩ := h
  have hr : Handler.readMetadata handler t.metadata = Handler.readMetadata handler u.metadata := by
    rcases hm with hm | ⟨pairs, ht, hu⟩
    · rw [hm]
    · rw [Handler.readMetadata_of_gives ht, Handler.readMetadata_of_gives hu]
  rw [ho]
  simp only [declaration?, complete, hr]
  rfl

namespace Registry

theorem visit_restated {v w : Visit} (h : Visit.Rel TopicMark.Restates v w) (res : Resolver) (r : Registry) :
    r.visit res v = r.visit res w := by
  cases h with
  | failing error => rfl
  | mark handler hm bulk? =>
    cases hm with
    | stray kind => rfl
    | topic h => rw [visit, visit, h.declaration?_eq]

theorem visitAll_restated {vs ws : List Visit} (h : List.Forall₂ (Visit.Rel TopicMark.Restates) vs ws) (res : Resolver)
    (r : Registry) : r.visitAll res vs = r.visitAll res ws := by
  induction h generalizing r with
  | nil => rfl
  | cons hv _ ih => simp only [visitAll, visit_restated hv, ih]

/-- Texts that are given as a mapping are read as they are, and so is the JSON text of the mapping. Owners that differ
only in which of these they give come to the same in discovery: the same topics or the same error, and the same
registry afterwards. -/
theorem discover_restated :
    (∀ m pairs, m.IsMappingOf pairs → ∀ handler, Handler.readMetadata handler m = .ok pairs ∧
      ∃ t, m.toJsonText = .ok t ∧ (Value.text t).Gives pairs ∧ Handler.readMetadata handler (.text t) = .ok pairs) ∧
    ∀ o p, Owner.Rel TopicMark.Restates o p → ∀ (res : Resolver) (r : Registry),
      r.discover res o = r.discover res p := by
  constructor
  · intro m pairs h handler
    obtain ⟨t, ht, hg⟩ := h.exists_toJsonText
    exact ⟨Handler.readMetadata_of_gives (.mapping h) handler, t, ht, hg, Handler.readMetadata_of_gives hg handler⟩
  · intro o p h res r
    exact visitAll_restated h.visits res r

/-- An empty name, a blank value, half of a surrogate pair, and what is escaped. -/
def oddTexts : List (Text × Text) := [([], lit " "), ([0xD800], 0 :: lit "\"\\")]

/-- A mapping that can be read only. -/
def oddMapping : Value := .view (oddTexts.map fun (name, value) => (.text name, .text value))

def oddJsonText : Text := lit "\x7b\"\":\" \",\"" ++ [0xD800] ++ lit "\":\"\\u0000\\\"\\\\\"\x7d"

def markWith (metadata : Value) : TopicMark :=
  { topic := .text (lit "orders"), pubsub := .text (lit "pubsub"), metadata }

theorem discover_restated_odd : oddMapping.IsMappingOf oddTexts ∧ oddMapping.toJsonText = .ok oddJsonText ∧
    Owner.Rel TopicMark.Restates (ownerOf (markWith oddMapping)) (ownerOf (markWith (.text oddJsonText))) ∧
    Handler.readMetadata (lit "Handlers.on_event") oddMapping = .ok oddTexts ∧
    Handler.readMetadata (lit "Handlers.on_event") (.text oddJsonText) = .ok oddTexts ∧
    empty.discover {} (ownerOf (markWith oddMapping)) = empty.discover {} (ownerOf (markWith (.text oddJsonText))) := by
  have h : oddMapping.IsMappingOf oddTexts := ⟨by decide, rfl⟩
  have htext : oddMapping.toJsonText = .ok oddJsonText := rfl
  obtain ⟨hm, t, ht, hg, hr⟩ := discover_restated.1 oddMapping oddTexts h (lit "Handlers.on_event")
  obtain rfl : oddJsonText = t := Except.ok.inj (htext.symm.trans ht)
  have hmark : (markWith oddMapping).Restates (markWith (.text oddJsonText)) :=
    ⟨rfl, .inr ⟨oddTexts, .mapping h, hg⟩⟩
  have hhandler : Handler.Rel TopicMark.Restates ⟨[.topic (markWith oddMapping)], none⟩
      ⟨[.topic (markWith (.text oddJsonText))], none⟩ := ⟨.cons (.topic hmark) .nil, rfl⟩
  have ho : Owner.Rel TopicMark.Restates (ownerOf (markWith oddMapping)) (ownerOf (markWith (.text oddJsonText))) :=
    ⟨rfl, rfl, .nil, .cons (.cons ⟨rfl, .handler hhandler⟩ .nil) .nil⟩
  exact ⟨h, htext, ho, hm, hr, discover_restated.2 _ _ ho {} empty⟩

end Registry

end PubSub

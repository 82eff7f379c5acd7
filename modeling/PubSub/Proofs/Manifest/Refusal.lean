import PubSub.Proofs.Manifest.Decoding
/-!
# What refuses a manifest

A manifest that comes as a text or as octets is read in full or refused as a manifest, whatever is wrong with it: its
encoding, its JSON, what kind of document it is, or one of its elements. Of several elements that are no entries the
first is named (`decode_or_refuse`).
-/
namespace PubSub

/-- A text or octets. -/
def Value.IsData : Value → Prop
  | .text _ | .bytes _ => True
  | _ => False

namespace Manifest

/-- What was handed over was refused for what it says, not for being neither a text nor octets. -/
def DocumentError.IsOfManifest : DocumentError → Prop
  | .notText _ => False
  | _ => True

/-- It is by their class that refusals of manifests are told from those of other values. -/
theorem DocumentError.isOfManifest_iff {e : DocumentError} : e.IsOfManifest ↔ e.errorClass = .manifestDecode := by
  cases e with
  | notText kind => exact iff_of_false id (by rintro ⟨⟩)
  | _ => exact iff_of_true trivial rfl

/-- The message names the element at a place. -/
def DocumentError.Names (index : Nat) (e : DocumentError) : Prop :=
  lit "Manifest element " ++ Decimal.ofNat index ++ lit " " <+: e.message

/-- The element is read as some entry. -/
def IsElement (j : Json) : Prop := ∃ e : Entry, e.IsReadFrom j

/-- A message names one place only. -/
theorem DocumentError.Names.unique {e : DocumentError} {i j : Nat} (hi : e.Names i) (hj : e.Names j) : i = j := by
  obtain ⟨r, hr⟩ := hi
  obtain ⟨s, hs⟩ := hj
  have h := hr.trans hs.symm
  simp only [List.append_assoc] at h
  -- The digits of the place end at the blank after them.
  have hd (n : Nat) (rest : Text) : Decimal.spanDigits (Decimal.ofNat n ++ (lit " " ++ rest)) =
      (Decimal.ofNat n, lit " " ++ rest) := by
    refine Decimal.spanDigits_append (fun c hc => Decimal.isDigit_ofNat hc) ?_
    rintro _ ⟨⟩
    decide
  have hp := congrArg Decimal.spanDigits (List.append_cancel_left h)
  rw [hd, hd] at hp
  calc i = Decimal.value (Decimal.ofNat i) := (Decimal.value_ofNat i).symm
    _ = Decimal.value (Decimal.ofNat j) := congrArg Decimal.value (Prod.mk.inj hp).1
    _ = j := Decimal.value_ofNat j

/-! ## Documents -/

theorem isOfManifest_locate (t : Text) (fault : Json.Fault) :
    (DocumentError.ofReadError (Json.locate t fault)).IsOfManifest := by
  cases fault <;> trivial

/-- Octets may be refused by their encoding, a text and decoded octets by the parser, and by nothing else. -/
theorem read_failsOnly {v : Value} (hv : v.IsData) :
    FailsOnly (fun e => (DocumentError.ofReadError e).IsOfManifest) (Json.read v) := by
  cases v with
  | text t => exact failsOnly_mapError.2 fun fault _ => isOfManifest_locate t fault
  | bytes bs =>
    rw [Json.read, Json.readBytes]
    cases Text.decodeDetected bs with
    | ok t => exact failsOnly_mapError.2 fun fault _ => isOfManifest_locate t fault
    | error fault =>
      rw [failsOnly_error]
      trivial
  | _ => exact hv.elim

theorem decode_eq_elementsFrom {v : Value} {js : List Json} (h : Json.read v = .ok (.arr js)) :
    decode v = elementsFrom 0 js := by
  rw [decode, h]
  rfl

/-- Only arrays are manifests. -/
theorem decode_eq_ok_iff_elements {v : Value} {es : List Entry} :
    decode v = .ok es ↔ ∃ js, Json.read v = .ok (.arr js) ∧ List.Forall₂ (fun j e => e.IsReadFrom j) js es := by
  rw [decode_eq_ok_iff]
  constructor
  · rintro ⟨j, hj, h⟩
    cases j with
    | arr js => exact ⟨js, hj, elementsFrom_eq_ok_iff.1 h⟩
    | _ => cases h
  · rintro ⟨js, hj, h⟩
    exact ⟨.arr js, hj, elementsFrom_eq_ok_iff.2 h⟩

/-! ## Elements -/

/-- An element that is refused is named, for being no object as for not being an entry. -/
theorem elementOf_failsOnly (index : Nat) (j : Json) :
    FailsOnly (fun e => e.IsOfManifest ∧ e.Names index) (elementOf index j) := by
  have hp (rest : Text) : lit "Manifest element " ++ Decimal.ofNat index ++ lit " " <+:
      lit "Manifest element " ++ Decimal.ofNat index ++ (lit " " ++ rest) := by
    rw [← List.append_assoc]
    exact List.prefix_append _ rest
  cases j with
  | obj members => exact failsOnly_mapError.2 fun _ _ => ⟨trivial, hp (lit "is malformed")⟩
  | _ =>
    refine failsOnly_error.2 ⟨trivial, ?_⟩
    rw [DocumentError.Names, DocumentError.message, List.append_assoc _ (lit " must be an object, got ")]
    exact hp _

/-- The elements are refused with what refuses the first that is no entry. -/
theorem elementsFrom_eq_error {index : Nat} {js : List Json} {e : DocumentError}
    (h : elementsFrom index js = .error e) :
    ∃ before j after, js = before ++ j :: after ∧ (∀ k ∈ before, IsElement k) ∧ ¬ IsElement j ∧
      elementOf (index + before.length) j = .error e := by
  rw [elementsFrom_eq, mapM_eq_error_iff] at h
  obtain ⟨ps, ⟨j, i⟩, rest, hl, ⟨es, hes⟩, he⟩ := h
  have hjs : js = ps.map Prod.fst ++ j :: rest.map Prod.fst := by
    have hm := congrArg (List.map Prod.fst) hl
    rwa [List.zipIdx_map_fst, List.map_append, List.map_cons] at hm
  have hi : i = index + ps.length := by
    have hg : (js.zipIdx index)[ps.length]? = some (j, i) := by
      rw [hl, List.getElem?_append_right (Nat.le_refl _), Nat.sub_self]
      rfl
    rw [List.getElem?_zipIdx] at hg
    obtain ⟨_, -, hp⟩ := Option.map_eq_some_iff.1 hg
    exact (congrArg Prod.snd hp).symm
  refine ⟨ps.map Prod.fst, j, rest.map Prod.fst, hjs, ?_, ?_, ?_⟩
  · intro k hk
    obtain ⟨p, hp, rfl⟩ := List.mem_map.1 hk
    obtain ⟨e', -, h'⟩ := exists_of_mem_left (mapM_eq_ok_iff.1 hes) hp
    exact ⟨e', elementOf_eq_ok_iff.1 h'⟩
  · rintro ⟨e', h'⟩
    cases (elementOf_eq_ok_iff.2 h').symm.trans he
  · rw [List.length_map, ← hi]
    exact he

theorem elementsFrom_isOk_iff {index : Nat} {js : List Json} :
    (∃ es, elementsFrom index js = .ok es) ↔ ∀ j ∈ js, IsElement j := by
  constructor
  · rintro ⟨es, h⟩ j hj
    obtain ⟨e, -, he⟩ := exists_of_mem_left (elementsFrom_eq_ok_iff.1 h) hj
    exact ⟨e, he⟩
  · intro h
    cases hr : elementsFrom index js with
    | ok es => exact ⟨es, rfl⟩
    | error e =>
      obtain ⟨before, j, after, rfl, -, hj, -⟩ := elementsFrom_eq_error hr
      exact absurd (h j (by simp)) hj

/-! ## Manifests -/

theorem decode_failsOnly {v : Value} (hv : v.IsData) : FailsOnly DocumentError.IsOfManifest (decode v) := by
  rw [decode]
  cases hr : Json.read v with
  | error e => exact failsOnly_error.2 (read_failsOnly hv e hr)
  | ok j =>
    cases j with
    | arr js =>
      intro e he
      obtain ⟨before, j, after, -, -, -, he⟩ := elementsFrom_eq_error he
      exact (elementOf_failsOnly _ j e he).1
    | _ => exact failsOnly_error.2 trivial

/-- A text or octets are refused as a manifest or not at all. They are not refused exactly if they are an array of
objects that all are read as entries, and then these entries come out one by one. An array that is refused is refused
with the place of the first element that is no entry, and of no other. -/
theorem decode_or_refuse {v : Value} (hv : v.IsData) :
    FailsOnly DocumentError.IsOfManifest (decode v) ∧
    ((∃ es, decode v = .ok es) ↔ ∃ js, Json.read v = .ok (.arr js) ∧ ∀ j ∈ js, IsElement j) ∧
    (∀ es, decode v = .ok es ↔
      ∃ js, Json.read v = .ok (.arr js) ∧ List.Forall₂ (fun j e => e.IsReadFrom j) js es) ∧
    ∀ js, Json.read v = .ok (.arr js) → (∃ j ∈ js, ¬ IsElement j) →
      ∃ before j after, js = before ++ j :: after ∧ (∀ k ∈ before, IsElement k) ∧ ¬ IsElement j ∧
        ∃ e, decode v = .error e ∧ ∀ index, e.Names index ↔ index = before.length := by
  refine ⟨decode_failsOnly hv, ?_, fun _ => decode_eq_ok_iff_elements, ?_⟩
  · constructor
    · rintro ⟨es, h⟩
      obtain ⟨js, hj, hes⟩ := decode_eq_ok_iff_elements.1 h
      have he : elementsFrom 0 js = .ok es := elementsFrom_eq_ok_iff.2 hes
      exact ⟨js, hj, elementsFrom_isOk_iff.1 ⟨es, he⟩⟩
    · rintro ⟨js, hj, h⟩
      rw [decode_eq_elementsFrom hj]
      exact elementsFrom_isOk_iff.2 h
  · rintro js hj ⟨k, hk, hn⟩
    rw [decode_eq_elementsFrom hj]
    cases hr : elementsFrom 0 js with
    | ok es => exact absurd (elementsFrom_isOk_iff.1 ⟨es, hr⟩ k hk) hn
    | error e =>
      obtain ⟨before, j, after, hjs, hb, hn, he⟩ := elementsFrom_eq_error hr
      rw [Nat.zero_add] at he
      have hm := (elementOf_failsOnly _ j e he).2
      refine ⟨before, j, after, hjs, hb, hn, e, rfl, fun index => ⟨fun h => h.unique hm, ?_⟩⟩
      rintro rfl
      exact hm

/-- A manifest whose second element is a number. -/
def numbered : Text := lit "[\x7b\"pubsubname\":\"pubsub\",\"topic\":\"orders\"\x7d,5]"

theorem read_numbered : Json.read (.text numbered) =
    .ok (.arr [.obj [(lit "pubsubname", .str (lit "pubsub")), (lit "topic", .str (lit "orders"))], .int 5]) := by
  have ho := yields_topic (fun start rest => Json.scanString_escape start (lit "pubsub") rest) (lit ",5]")
  have hs : Json.scanScalar (lit "5]") = .ok (.int 5, lit "]") := rfl
  have hi := Json.scanItems_last (Json.scanValue_scalar hs (by decide))
  have ha := Json.scanValue_arr (by decide) (by decide) (Json.scanItems_cons ho hi)
  exact Json.read_text_of_yields (Json.skipBlank_cons (by decide) _) (by decide) ha

theorem decode_or_refuse_numbered : (Value.text numbered).IsData ∧
    (∃ js, Json.read (.text numbered) = .ok (.arr js) ∧ ∃ j ∈ js, ¬ IsElement j) ∧
    ∃ e : DocumentError, decode (.text numbered) = .error e ∧ e.IsOfManifest ∧ ∀ index, e.Names index ↔ index = 1 := by
  have hd : (Value.text numbered).IsData := trivial
  have h5 : ¬ IsElement (.int 5) := by
    rintro ⟨e, ⟨members, h⟩, -⟩
    cases h
  obtain ⟨hf, -, -, hr⟩ := decode_or_refuse hd
  obtain ⟨before, j, after, hjs, -, hj, e, he, hn⟩ := hr _ read_numbered ⟨.int 5, by simp, h5⟩
  refine ⟨hd, ⟨_, read_numbered, .int 5, by simp, h5⟩, e, he, hf e he, ?_⟩
  -- The object before the number is an entry, so the number is what is refused.
  rcases before with _ | ⟨x, _ | ⟨y, before⟩⟩
  · cases hjs
    exact absurd ⟨_, ⟨_, rfl⟩, rfl⟩ hj
  · exact hn
  · simp at hjs

end Manifest

end PubSub

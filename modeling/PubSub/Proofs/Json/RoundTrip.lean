import PubSub.Json.Document
import PubSub.Proofs.Assoc
import PubSub.Proofs.Json.Strings
import PubSub.Proofs.Number.Numeral
import PubSub.Proofs.Text.Utf8
/-!
# Documents read back

`parse_print`: a printed document is parsed as itself, if it has no fractions, no integer that is too long and no
object with a name twice. The proof goes along the document. The readers are streaming, so each statement is about a
printed part with anything after it that does not lengthen a numeral. `read_bytes`: so is a document that was written
and encoded.
-/
namespace PubSub.Json

mutual

/-- `p` holds of the document and of every part of it. -/
def Everywhere (p : Json → Prop) : Json → Prop
  | .arr items => p (.arr items) ∧ EverywhereItems p items
  | .obj members => p (.obj members) ∧ EverywhereMembers p members
  | j => p j

/-- `p` holds everywhere in all items. -/
def EverywhereItems (p : Json → Prop) : List Json → Prop
  | [] => True
  | j :: js => Everywhere p j ∧ EverywhereItems p js

/-- `p` holds everywhere in all members. -/
def EverywhereMembers (p : Json → Prop) : List (Text × Json) → Prop
  | [] => True
  | (_, j) :: ms => Everywhere p j ∧ EverywhereMembers p ms

end

/-- Not a fraction, not an integer of too many digits, not an object with a name twice. -/
def ReadsBack : Json → Prop
  | .int i => ¬ IsLong i
  | .float _ => False
  | .obj members => (Assoc.keys members).Nodup
  | _ => True

/-- UTF-8 carries the string, or the names of the object. -/
def Encodes : Json → Prop
  | .str t => Text.Encodable t
  | .obj members => ∀ name ∈ Assoc.keys members, Text.Encodable name
  | _ => True

/-- The parser gets the document back from what is printed of it. -/
def Readable (j : Json) : Prop := Everywhere ReadsBack j

/-- UTF-8 carries every string and every name of the document. -/
def Carried (j : Json) : Prop := Everywhere Encodes j

theorem everywhereItems_iff {p : Json → Prop} {items : List Json} :
    EverywhereItems p items ↔ ∀ j ∈ items, Everywhere p j := by
  induction items with
  | nil => simp [EverywhereItems]
  | cons j js ih => simp [EverywhereItems, ih]

theorem everywhereMembers_iff {p : Json → Prop} {members : List (Text × Json)} :
    EverywhereMembers p members ↔ ∀ m ∈ members, Everywhere p m.2 := by
  induction members with
  | nil => simp [EverywhereMembers]
  | cons m ms ih => simp [EverywhereMembers, ih]

mutual

theorem Everywhere.mono {p q : Json → Prop} (h : ∀ j, p j → q j) : ∀ j, Everywhere p j → Everywhere q j
  | .null, hj => h _ hj
  | .bool _, hj => h _ hj
  | .int _, hj => h _ hj
  | .float _, hj => h _ hj
  | .str _, hj => h _ hj
  | .arr js, hj => ⟨h _ hj.1, EverywhereItems.mono h js hj.2⟩
  | .obj ms, hj => ⟨h _ hj.1, EverywhereMembers.mono h ms hj.2⟩

theorem EverywhereItems.mono {p q : Json → Prop} (h : ∀ j, p j → q j) :
    ∀ js, EverywhereItems p js → EverywhereItems q js
  | [], _ => trivial
  | j :: js, hj => ⟨Everywhere.mono h j hj.1, EverywhereItems.mono h js hj.2⟩

theorem EverywhereMembers.mono {p q : Json → Prop} (h : ∀ j, p j → q j) :
    ∀ ms, EverywhereMembers p ms → EverywhereMembers q ms
  | [], _ => trivial
  | (_, j) :: ms, hj => ⟨Everywhere.mono h j hj.1, EverywhereMembers.mono h ms hj.2⟩

end

mutual

theorem Everywhere.and {p q : Json → Prop} :
    ∀ j, Everywhere p j → Everywhere q j → Everywhere (fun k => p k ∧ q k) j
  | .null, hp, hq => ⟨hp, hq⟩
  | .bool _, hp, hq => ⟨hp, hq⟩
  | .int _, hp, hq => ⟨hp, hq⟩
  | .float _, hp, hq => ⟨hp, hq⟩
  | .str _, hp, hq => ⟨hp, hq⟩
  | .arr js, hp, hq => ⟨⟨hp.1, hq.1⟩, EverywhereItems.and js hp.2 hq.2⟩
  | .obj ms, hp, hq => ⟨⟨hp.1, hq.1⟩, EverywhereMembers.and ms hp.2 hq.2⟩

theorem EverywhereItems.and {p q : Json → Prop} :
    ∀ js, EverywhereItems p js → EverywhereItems q js → EverywhereItems (fun k => p k ∧ q k) js
  | [], _, _ => trivial
  | j :: js, hp, hq => ⟨Everywhere.and j hp.1 hq.1, EverywhereItems.and js hp.2 hq.2⟩

theorem EverywhereMembers.and {p q : Json → Prop} :
    ∀ ms, EverywhereMembers p ms → EverywhereMembers q ms → EverywhereMembers (fun k => p k ∧ q k) ms
  | [], _, _ => trivial
  | (_, j) :: ms, hp, hq => ⟨Everywhere.and j hp.1 hq.1, EverywhereMembers.and ms hp.2 hq.2⟩

end

/-- A reader comes out with `a` and leaves `rest`. -/
def Yields {α : Type} {t : Text} (r : Except Fault (Reading α t)) (a : α) (rest : Text) : Prop :=
  ∃ h, r = .ok ⟨a, rest, h⟩

/-! ## Heads of printed parts -/

theorem skipBlank_cons {c : CodePoint} (h : ¬ IsBlank c) (t : Text) : skipBlank (c :: t) = c :: t :=
  List.dropWhile_cons_of_neg (by simpa using h)

theorem ofInt_eq_cons (i : Int) : ∃ c t, Decimal.ofInt i = c :: t ∧ (CodePoint.IsDigit c ∨ c = 0x2D) := by
  cases i with
  | ofNat n =>
    obtain ⟨c, t, he, hc, -⟩ := Decimal.ofNat_eq_cons n
    exact ⟨c, t, he, .inl hc⟩
  | negSucc n => exact ⟨0x2D, _, rfl, .inr rfl⟩

/-- A printed document starts with no blank, no closing bracket and no byte order mark. -/
theorem print_eq_cons {j : Json} (h : j.Readable) :
    ∃ c t, print j = c :: t ∧ ¬ IsBlank c ∧ c ≠ 0x5D ∧ c ≠ 0xFEFF := by
  cases j with
  | null => exact ⟨_, _, rfl, by decide, by decide, by decide⟩
  | bool b => cases b <;> exact ⟨_, _, rfl, by decide, by decide, by decide⟩
  | int i =>
    obtain ⟨c, t, he, hc⟩ := ofInt_eq_cons i
    refine ⟨c, t, by rw [print, he], ?_⟩
    simp only [CodePoint.IsDigit, IsBlank, CodePoint] at hc ⊢
    omega
  | float x => exact h.elim
  | str t => exact ⟨_, _, rfl, by decide, by decide, by decide⟩
  | arr items => exact ⟨_, _, rfl, by decide, by decide, by decide⟩
  | obj members => exact ⟨_, _, rfl, by decide, by decide, by decide⟩

/-! ## One step of each reader -/

theorem scanValue_string {u s rest : Text} (h : scanString (u.length + 1) u = .ok (s, rest)) :
    Yields (scanValue (0x22 :: u)) (.str s) rest := by
  rw [scanValue.eq_def]
  dsimp only
  rw [if_pos rfl]
  split
  · next h' =>
    rw [h] at h'
    cases h'
    exact ⟨_, rfl⟩
  · next h' =>
    rw [h] at h'
    cases h'

theorem scanValue_scalar {t : Text} {j : Json} {rest : Text} (h : scanScalar t = .ok (j, rest))
    (hc : ∀ c ∈ t.head?, c ≠ 0x22 ∧ c ≠ 0x5B ∧ c ≠ 0x7B) : Yields (scanValue t) j rest := by
  cases t with
  | nil => cases h
  | cons c u =>
    obtain ⟨h1, h2, h3⟩ := hc c rfl
    rw [scanValue.eq_def]
    dsimp only
    rw [if_neg h1, if_neg h2, if_neg h3]
    split
    · next h' =>
      rw [h] at h'
      cases h'
      exact ⟨_, rfl⟩
    · next h' =>
      rw [h] at h'
      cases h'

theorem scanValue_arr_nil (rest : Text) : Yields (scanValue (0x5B :: 0x5D :: rest)) (.arr []) rest := by
  rw [scanValue.eq_def]
  exact ⟨_, rfl⟩

theorem scanValue_obj_nil (rest : Text) : Yields (scanValue (0x7B :: 0x7D :: rest)) (.obj []) rest := by
  rw [scanValue.eq_def]
  exact ⟨_, rfl⟩

theorem scanValue_arr {c : CodePoint} {u : Text} {items : List Json} {rest : Text} (hb : ¬ IsBlank c) (hc : c ≠ 0x5D)
    (h : Yields (scanItems (c :: u)) items rest) : Yields (scanValue (0x5B :: c :: u)) (.arr items) rest := by
  obtain ⟨hl, h⟩ := h
  rw [scanValue.eq_def]
  dsimp only
  rw [if_neg (by decide), if_pos rfl]
  split
  · next h' =>
    rw [skipBlank_cons hb] at h'
    cases h'
  · next h' =>
    rw [skipBlank_cons hb] at h'
    cases h'
    simp only [if_neg hc, h]
    exact ⟨_, rfl⟩

theorem scanValue_obj {c : CodePoint} {u : Text} {members : List (Text × Json)} {rest : Text} (hb : ¬ IsBlank c)
    (hc : c ≠ 0x7D) (h : Yields (scanMembers (c :: u)) members rest) :
    Yields (scanValue (0x7B :: c :: u)) (.obj (Assoc.ofPairs members)) rest := by
  obtain ⟨hl, h⟩ := h
  rw [scanValue.eq_def]
  dsimp only
  rw [if_neg (by decide), if_neg (by decide), if_pos rfl]
  split
  · next h' =>
    rw [skipBlank_cons hb] at h'
    cases h'
  · next h' =>
    rw [skipBlank_cons hb] at h'
    cases h'
    simp only [if_neg hc, h]
    exact ⟨_, rfl⟩

theorem scanItems_last {t : Text} {item : Json} {rest : Text} (h : Yields (scanValue t) item (0x5D :: rest)) :
    Yields (scanItems t) [item] rest := by
  obtain ⟨hl, h⟩ := h
  rw [scanItems.eq_def]
  simp only [h]
  exact ⟨_, rfl⟩

theorem scanItems_cons {t : Text} {item : Json} {u : Text} {items : List Json} {rest : Text}
    (h : Yields (scanValue t) item (0x2C :: u)) (hs : Yields (scanItems (skipBlank u)) items rest) :
    Yields (scanItems t) (item :: items) rest := by
  obtain ⟨hl, h⟩ := h
  obtain ⟨hl', hs⟩ := hs
  rw [scanItems.eq_def]
  simp only [h]
  split
  · next h' =>
    rw [skipBlank_cons (by decide)] at h'
    cases h'
  · next h' =>
    rw [skipBlank_cons (by decide)] at h'
    cases h'
    rw [if_neg (by decide), if_pos rfl]
    simp only [hs]
    exact ⟨_, rfl⟩

theorem scanMembers_last {u name v : Text} {value : Json} {rest : Text}
    (hn : scanString (u.length + 1) u = .ok (name, 0x3A :: v))
    (h : Yields (scanValue (skipBlank v)) value (0x7D :: rest)) :
    Yields (scanMembers (0x22 :: u)) [(name, value)] rest := by
  obtain ⟨hl, h⟩ := h
  rw [scanMembers.eq_def]
  dsimp only
  rw [if_neg (by decide)]
  split
  · next h' =>
    rw [hn] at h'
    cases h'
  · next h' =>
    rw [hn] at h'
    cases h'
    split
    · next h' =>
      rw [skipBlank_cons (by decide)] at h'
      cases h'
    · next h' =>
      rw [skipBlank_cons (by decide)] at h'
      cases h'
      rw [if_neg (by decide)]
      simp only [h]
      exact ⟨_, rfl⟩

theorem scanMembers_cons {u name v : Text} {value : Json} {w : Text} {members : List (Text × Json)} {rest : Text}
    (hn : scanString (u.length + 1) u = .ok (name, 0x3A :: v))
    (h : Yields (scanValue (skipBlank v)) value (0x2C :: w)) (hs : Yields (scanMembers (skipBlank w)) members rest) :
    Yields (scanMembers (0x22 :: u)) ((name, value) :: members) rest := by
  obtain ⟨hl, h⟩ := h
  obtain ⟨hl', hs⟩ := hs
  rw [scanMembers.eq_def]
  dsimp only
  rw [if_neg (by decide)]
  split
  · next h' =>
    rw [hn] at h'
    cases h'
  · next h' =>
    rw [hn] at h'
    cases h'
    split
    · next h' =>
      rw [skipBlank_cons (by decide)] at h'
      cases h'
    · next h' =>
      rw [skipBlank_cons (by decide)] at h'
      cases h'
      rw [if_neg (by decide)]
      simp only [h]
      split
      · next h' =>
        rw [skipBlank_cons (by decide)] at h'
        cases h'
      · next h' =>
        rw [skipBlank_cons (by decide)] at h'
        cases h'
        rw [if_neg (by decide), if_pos rfl]
        simp only [hs]
        exact ⟨_, rfl⟩

/-! ## Scalars -/

theorem scanWord?_ofInt (i : Int) (rest : Text) : scanWord? (Decimal.ofInt i ++ rest) = none := by
  cases i with
  | ofNat n =>
    obtain ⟨c, t, he, hc, -⟩ := Decimal.ofNat_eq_cons n
    have hne : ∀ d : Nat, ¬ CodePoint.IsDigit d → d ≠ c := by
      rintro d hd rfl
      exact hd hc
    simp [Decimal.ofInt, he, scanWord?, words, lit, Text.after?, hne 0x6E (by decide), hne 0x74 (by decide),
      hne 0x66 (by decide), hne 0x4E (by decide), hne 0x49 (by decide), hne 0x2D (by decide)]
  | negSucc n =>
    obtain ⟨c, t, he, hc, -⟩ := Decimal.ofNat_eq_cons (n + 1)
    -- One word starts with a minus sign, but no digit follows in it.
    have hne : 0x49 ≠ c := by
      rintro rfl
      exact absurd hc (by decide)
    simp [Decimal.ofInt, he, scanWord?, words, lit, Text.after?, hne]

theorem scanScalar_ofInt {i : Int} (h : ¬ IsLong i) {rest : Text}
    (hr : Numeral.StopsBefore rest) : scanScalar (Decimal.ofInt i ++ rest) = .ok (.int i, rest) := by
  rw [scanScalar, scanWord?_ofInt]
  simp only [Numeral.scan?_ofInt i hr]
  rw [ofNumeral, if_pos ⟨rfl, rfl⟩, if_neg (by exact h), Numeral.toInt_ofInt]
  rfl

/-! ## Along the document -/

theorem stopsBefore_separator {c : CodePoint} (h : c = 0x2C ∨ c = 0x5D ∨ c = 0x7D) (rest : Text) :
    Numeral.StopsBefore (c :: rest) := by
  rcases h with rfl | rfl | rfl <;> exact Numeral.stopsBefore_cons (by decide) rest

theorem skipBlank_print {j : Json} (h : j.Readable) (rest : Text) :
    skipBlank (print j ++ rest) = print j ++ rest := by
  obtain ⟨c, t, he, hc, -⟩ := print_eq_cons h
  rw [he, List.cons_append, skipBlank_cons hc]

theorem printItems_cons_cons (j k : Json) (js : List Json) :
    printItems (j :: k :: js) = print j ++ 0x2C :: printItems (k :: js) := by
  rw [printItems]
  simp

theorem printMembers_singleton (k : Text) (j : Json) (rest : Text) :
    printMembers [(k, j)] ++ rest = 0x22 :: (k.flatMap escape ++ 0x22 :: 0x3A :: (print j ++ rest)) := by
  simp [printMembers, printString]

theorem printMembers_cons_cons (k : Text) (j : Json) (m : Text × Json) (ms : List (Text × Json)) (rest : Text) :
    printMembers ((k, j) :: m :: ms) ++ rest =
      0x22 :: (k.flatMap escape ++ 0x22 :: 0x3A :: (print j ++ 0x2C :: (printMembers (m :: ms) ++ rest))) := by
  rw [printMembers]
  · simp [printString]
  · simp

theorem printItems_eq_cons {j : Json} (h : j.Readable) (js : List Json) :
    ∃ c t, printItems (j :: js) = c :: t ∧ ¬ IsBlank c ∧ c ≠ 0x5D := by
  obtain ⟨c, t, he, hb, hc, -⟩ := print_eq_cons h
  cases js with
  | nil => exact ⟨c, t, by rw [printItems, he], hb, hc⟩
  | cons k js => exact ⟨c, t ++ 0x2C :: printItems (k :: js), by rw [printItems_cons_cons, he]; rfl, hb, hc⟩

theorem printMembers_eq_cons (m : Text × Json) (ms : List (Text × Json)) :
    ∃ t, printMembers (m :: ms) = 0x22 :: t := by
  cases ms with
  | nil => exact ⟨_, rfl⟩
  | cons n ms => exact ⟨_, rfl⟩

mutual

theorem scanValue_print : ∀ (j : Json) (rest : Text), j.Readable → Numeral.StopsBefore rest →
    Yields (scanValue (print j ++ rest)) j rest
  | .null, rest, _, _ => scanValue_scalar rfl (by simp [print, lit])
  | .bool true, rest, _, _ => scanValue_scalar rfl (by simp [print, lit])
  | .bool false, rest, _, _ => scanValue_scalar rfl (by simp [print, lit])
  | .int i, rest, h, hr => by
    obtain ⟨c, t, he, hc⟩ := ofInt_eq_cons i
    refine scanValue_scalar (scanScalar_ofInt h hr) ?_
    rw [print, he]
    rintro _ ⟨⟩
    simp only [CodePoint.IsDigit, CodePoint] at hc ⊢
    omega
  | .float x, rest, h, _ => h.elim
  | .str t, rest, _, _ => by
    rw [print, printString, List.cons_append, List.append_assoc]
    exact scanValue_string (scanString_escape _ t rest)
  | .arr [], rest, _, _ => scanValue_arr_nil rest
  | .arr (j :: js), rest, h, _ => by
    obtain ⟨c, t, he, hb, hc⟩ := printItems_eq_cons h.2.1 js
    have hs := scanItems_print (j :: js) rest h.2 (by simp)
    rw [print, List.cons_append, List.append_assoc, List.singleton_append]
    rw [he] at hs ⊢
    exact scanValue_arr hb hc hs
  | .obj [], rest, _, _ => scanValue_obj_nil rest
  | .obj (m :: ms), rest, h, _ => by
    obtain ⟨t, he⟩ := printMembers_eq_cons m ms
    have hs := scanMembers_print (m :: ms) rest h.2 (by simp)
    rw [print, List.cons_append, List.append_assoc, List.singleton_append]
    rw [he] at hs ⊢
    -- The reader keeps one member of each name, and each name is there once.
    have hv := scanValue_obj (by decide) (by decide) hs
    rwa [Assoc.ofPairs_of_nodup h.1] at hv

theorem scanItems_print : ∀ (js : List Json) (rest : Text), EverywhereItems ReadsBack js → js ≠ [] →
    Yields (scanItems (printItems js ++ 0x5D :: rest)) js rest
  | [], _, _, hn => absurd rfl hn
  | [j], rest, h, _ => scanItems_last (scanValue_print j _ h.1 (stopsBefore_separator (.inr (.inl rfl)) rest))
  | j :: k :: js, rest, h, _ => by
    have hs := scanItems_print (k :: js) rest h.2 (by simp)
    obtain ⟨c, t, he, hb, -⟩ := printItems_eq_cons h.2.1 js
    rw [printItems_cons_cons, List.append_assoc, List.cons_append]
    refine scanItems_cons (scanValue_print j _ h.1 (stopsBefore_separator (.inl rfl) _)) ?_
    -- The next item follows the comma at once.
    rw [he] at hs ⊢
    rwa [List.cons_append, skipBlank_cons hb]

theorem scanMembers_print : ∀ (ms : List (Text × Json)) (rest : Text), EverywhereMembers ReadsBack ms → ms ≠ [] →
    Yields (scanMembers (printMembers ms ++ 0x7D :: rest)) ms rest
  | [], _, _, hn => absurd rfl hn
  | [(k, j)], rest, h, _ => by
    have hv := scanValue_print j _ h.1 (stopsBefore_separator (.inr (.inr rfl)) rest)
    rw [← skipBlank_print h.1] at hv
    rw [printMembers_singleton]
    exact scanMembers_last (scanString_escape _ k _) hv
  | (k, j) :: m :: ms, rest, h, _ => by
    have hv := scanValue_print j _ h.1 (stopsBefore_separator (.inl rfl) (printMembers (m :: ms) ++ 0x7D :: rest))
    rw [← skipBlank_print h.1] at hv
    have hs := scanMembers_print (m :: ms) rest h.2 (by simp)
    obtain ⟨t, he⟩ := printMembers_eq_cons m ms
    have hb : skipBlank (printMembers (m :: ms) ++ 0x7D :: rest) = printMembers (m :: ms) ++ 0x7D :: rest := by
      rw [he, List.cons_append, skipBlank_cons (by decide)]
    rw [← hb] at hs
    rw [printMembers_cons_cons]
    exact scanMembers_cons (scanString_escape _ k _) hv hs

end

/-- A text is parsed as the document that is scanned after its blanks, if nothing but blanks follows that. -/
theorem parse_eq_ok_iff {t : Text} {j : Json} :
    parse t = .ok j ↔ ∃ rest, Yields (scanValue (skipBlank t)) j rest ∧ skipBlank rest = [] := by
  unfold parse
  split
  · next hv =>
    constructor
    · intro h
      cases h
    · rintro ⟨rest, ⟨hl, h⟩, -⟩
      cases hv.symm.trans h
  · next hl hv =>
    split
    · next hr =>
      constructor
      · intro h
        cases h
        exact ⟨_, ⟨hl, hv⟩, hr⟩
      · rintro ⟨rest, ⟨hl', h⟩, -⟩
        cases hv.symm.trans h
        rfl
    · next hr =>
      constructor
      · intro h
        cases h
      · rintro ⟨rest, ⟨hl', h⟩, hb⟩
        cases hv.symm.trans h
        cases hr.symm.trans hb

theorem parse_of_yields {t : Text} {j : Json} (hb : skipBlank t = t) (h : Yields (scanValue t) j []) :
    parse t = .ok j := by
  rw [← hb] at h
  exact parse_eq_ok_iff.2 ⟨[], h, rfl⟩

/-- A text that starts with no blank and no byte order mark is read as the document that is scanned. -/
theorem read_text_of_yields {t : Text} {j : Json} (hb : skipBlank t = t) (hm : t.head? ≠ some 0xFEFF)
    (h : Yields (scanValue t) j []) : read (.text t) = .ok j := by
  rw [read, readText, parseUnmarked, if_neg hm, parse_of_yields hb h]
  rfl

/-- A printed document is parsed as itself. -/
theorem parse_print {j : Json} (h : j.Readable) : parse (print j) = .ok j := by
  have hb := skipBlank_print h []
  have hj := scanValue_print j [] h Numeral.stopsBefore_nil
  rw [List.append_nil] at hb hj
  exact parse_of_yields hb hj

/-- A printed document is read as itself. -/
theorem read_print {j : Json} (h : j.Readable) : read (.text (print j)) = .ok j := by
  obtain ⟨c, t, he, -, -, hm⟩ := print_eq_cons h
  have hh : (print j).head? ≠ some 0xFEFF := by simpa [he] using hm
  rw [read, readText, parseUnmarked, if_neg hh, parse_print h]
  rfl

/-! ## No integer is too long -/

theorem isLong_iff {i : Int} : IsLong i ↔ 10 ^ maxDigits ≤ i.natAbs := by
  have hk : 0 < maxDigits := by decide
  rw [IsLong, ← Nat.not_le, Decimal.length_ofNat_le_iff hk, Nat.not_lt]

theorem not_isLong {i : Int} {k : Nat} (hk : k ≤ maxDigits) (h : i.natAbs < 10 ^ k) : ¬ IsLong i := by
  rw [isLong_iff, Nat.not_le]
  exact Nat.lt_of_lt_of_le h (Nat.pow_le_pow_right (by decide) hk)

/-- Not an integer of too many digits. -/
def Short : Json → Prop
  | .int i => ¬ IsLong i
  | _ => True

mutual

theorem hasLong_eq_false_iff : ∀ j : Json, j.hasLong = false ↔ j.Everywhere Short
  | .null => iff_of_true rfl trivial
  | .bool _ => iff_of_true rfl trivial
  | .int _ => decide_eq_false_iff_not
  | .float _ => iff_of_true rfl trivial
  | .str _ => iff_of_true rfl trivial
  | .arr js => (hasLongItem_eq_false_iff js).trans (iff_of_eq (true_and _)).symm
  | .obj ms => (hasLongMember_eq_false_iff ms).trans (iff_of_eq (true_and _)).symm

theorem hasLongItem_eq_false_iff : ∀ js : List Json, hasLongItem js = false ↔ EverywhereItems Short js
  | [] => iff_of_true rfl trivial
  | j :: js => Bool.or_eq_false_iff.trans (and_congr (hasLong_eq_false_iff j) (hasLongItem_eq_false_iff js))

theorem hasLongMember_eq_false_iff : ∀ ms : List (Text × Json), hasLongMember ms = false ↔ EverywhereMembers Short ms
  | [] => iff_of_true rfl trivial
  | (_, j) :: ms => Bool.or_eq_false_iff.trans (and_congr (hasLong_eq_false_iff j) (hasLongMember_eq_false_iff ms))

end

theorem write_isOk_iff {j : Json} : (∃ t, j.write = .ok t) ↔ j.Everywhere Short := by
  rw [← hasLong_eq_false_iff, write]
  cases j.hasLong with
  | true => exact ⟨nofun, nofun⟩
  | false => exact ⟨fun _ => rfl, fun _ => ⟨_, rfl⟩⟩

/-! ## UTF-8 carries what is printed -/

theorem encodable_cons {c : CodePoint} {t : Text} : Text.Encodable (c :: t) ↔ c.IsScalar ∧ Text.Encodable t := by
  simp only [Text.Encodable, List.mem_cons, forall_eq_or_imp]

theorem encodable_append {s t : Text} : Text.Encodable (s ++ t) ↔ Text.Encodable s ∧ Text.Encodable t := by
  simp only [Text.Encodable, List.mem_append, or_imp, forall_and]

theorem encodable_hex (width n : Nat) : Text.Encodable (Text.hex width n) := by
  induction width generalizing n with
  | zero => exact nofun
  | succ w ih =>
    have hd : ∀ d, d < 16 → (CodePoint.hexDigit d).IsScalar := by decide
    rw [Text.hex, encodable_append]
    exact ⟨ih _, encodable_cons.2 ⟨hd _ (Nat.mod_lt _ (by decide)), by decide⟩⟩

theorem encodable_escape {c : CodePoint} (h : c.IsScalar) : Text.Encodable (escape c) := by
  unfold escape
  cases hs : shortEscape? c with
  | some e =>
    unfold shortEscape? at hs
    repeat' split at hs
    case isFalse => cases hs
    all_goals
      cases hs
      rw [Option.getD_some]
      decide
  | none =>
    rw [Option.getD_none]
    split
    · exact encodable_append.2 ⟨by decide, encodable_hex 4 c⟩
    · exact encodable_cons.2 ⟨h, by decide⟩

theorem encodable_printString {t : Text} (h : Text.Encodable t) : Text.Encodable (printString t) := by
  refine encodable_cons.2 ⟨by decide, encodable_append.2 ⟨fun d hd => ?_, by decide⟩⟩
  obtain ⟨c, hc, hd⟩ := List.mem_flatMap.1 hd
  exact encodable_escape (h c hc) d hd

theorem encodable_ofInt (i : Int) : Text.Encodable (Decimal.ofInt i) := by
  have hn : ∀ n, Text.Encodable (Decimal.ofNat n) := by
    intro n c hc
    have hd := Decimal.isDigit_ofNat hc
    simp only [CodePoint.IsDigit, CodePoint] at hd
    exact Text.isScalar_iff.2 (by omega)
  cases i with
  | ofNat n => exact hn n
  | negSucc n => exact encodable_cons.2 ⟨by decide, hn _⟩

mutual

theorem encodable_print : ∀ j : Json, j.Readable → j.Carried → Text.Encodable (print j)
  | .null, _, _ => by decide
  | .bool true, _, _ => by decide
  | .bool false, _, _ => by decide
  | .int i, _, _ => encodable_ofInt i
  | .float _, h, _ => h.elim
  | .str _, _, hc => encodable_printString hc
  | .arr js, h, hc =>
    encodable_cons.2 ⟨by decide, encodable_append.2 ⟨encodable_printItems js h.2 hc.2, by decide⟩⟩
  | .obj ms, h, hc =>
    encodable_cons.2 ⟨by decide, encodable_append.2 ⟨encodable_printMembers ms h.2 hc.1 hc.2, by decide⟩⟩

theorem encodable_printItems : ∀ js : List Json, EverywhereItems ReadsBack js → EverywhereItems Encodes js →
    Text.Encodable (printItems js)
  | [], _, _ => by decide
  | [j], h, hc => encodable_print j h.1 hc.1
  | j :: k :: js, h, hc => by
    rw [printItems_cons_cons, encodable_append, encodable_cons]
    exact ⟨encodable_print j h.1 hc.1, by decide, encodable_printItems (k :: js) h.2 hc.2⟩

theorem encodable_printMembers : ∀ ms : List (Text × Json), EverywhereMembers ReadsBack ms →
    (∀ name ∈ Assoc.keys ms, Text.Encodable name) → EverywhereMembers Encodes ms → Text.Encodable (printMembers ms)
  | [], _, _, _ => by decide
  | [(k, j)], h, hn, hc => by
    rw [printMembers, encodable_append, encodable_cons]
    exact ⟨encodable_printString (hn k (by simp [Assoc.keys])), by decide, encodable_print j h.1 hc.1⟩
  | (k, j) :: m :: ms, h, hn, hc => by
    rw [printMembers, encodable_append, encodable_cons, encodable_append, encodable_cons]
    · refine ⟨encodable_printString (hn k (by simp [Assoc.keys])), by decide, encodable_print j h.1 hc.1, by decide, ?_⟩
      exact encodable_printMembers (m :: ms) h.2 (fun name hm => hn name (List.mem_cons_of_mem _ hm)) hc.2
    · simp

end

/-! ## UTF-8 carries nothing else -/

theorem isScalar_of_escape {c : CodePoint} (h : Text.Encodable (escape c)) : c.IsScalar := by
  by_cases hc : c < 0x80
  · simp only [CodePoint] at hc
    exact Text.isScalar_iff.2 (by omega)
  -- What is escaped is ASCII.
  have hn : ∀ d : Nat, d < 0x80 → c ≠ d := by
    rintro d hd rfl
    exact hc hd
  have hs : shortEscape? c = none := by
    simp [shortEscape?, hn 0x22 (by decide), hn 0x5C (by decide), hn 0x08 (by decide), hn 0x0C (by decide),
      hn 0x0A (by decide), hn 0x0D (by decide), hn 0x09 (by decide)]
  have hl : ¬ c < 0x20 := by
    simp only [CodePoint] at hc ⊢
    omega
  rw [escape, hs, Option.getD_none, if_neg hl] at h
  exact (encodable_cons.1 h).1

theorem encodable_of_printString {t : Text} (h : Text.Encodable (printString t)) : Text.Encodable t := by
  obtain ⟨-, h⟩ := encodable_cons.1 h
  intro c hc
  exact isScalar_of_escape fun d hd => (encodable_append.1 h).1 d (List.mem_flatMap.2 ⟨c, hc, hd⟩)

mutual

/-- If UTF-8 carries what is printed of a document, it carries the document. -/
theorem carried_of_print : ∀ j : Json, Text.Encodable (print j) → j.Carried
  | .null, _ => trivial
  | .bool _, _ => trivial
  | .int _, _ => trivial
  | .float _, _ => trivial
  | .str _, h => encodable_of_printString h
  | .arr js, h => ⟨trivial, carried_of_printItems js (encodable_append.1 (encodable_cons.1 h).2).1⟩
  | .obj ms, h => carried_of_printMembers ms (encodable_append.1 (encodable_cons.1 h).2).1

theorem carried_of_printItems : ∀ js : List Json, Text.Encodable (printItems js) → EverywhereItems Encodes js
  | [], _ => trivial
  | [j], h => ⟨carried_of_print j h, trivial⟩
  | j :: k :: js, h => by
    rw [printItems_cons_cons, encodable_append, encodable_cons] at h
    exact ⟨carried_of_print j h.1, carried_of_printItems (k :: js) h.2.2⟩

theorem carried_of_printMembers : ∀ ms : List (Text × Json), Text.Encodable (printMembers ms) →
    (∀ name ∈ Assoc.keys ms, Text.Encodable name) ∧ EverywhereMembers Encodes ms
  | [], _ => ⟨nofun, trivial⟩
  | [(k, j)], h => by
    rw [printMembers, encodable_append, encodable_cons] at h
    exact ⟨List.forall_mem_singleton.2 (encodable_of_printString h.1), carried_of_print j h.2.2, trivial⟩
  | (k, j) :: m :: ms, h => by
    rw [printMembers, encodable_append, encodable_cons, encodable_append, encodable_cons] at h
    · obtain ⟨hk, -, hj, -, hms⟩ := h
      obtain ⟨hn, hm⟩ := carried_of_printMembers (m :: ms) hms
      exact ⟨List.forall_mem_cons.2 ⟨encodable_of_printString hk, hn⟩, carried_of_print j hj, hm⟩
    · simp

end

/-! ## Written, encoded and read -/

theorem short_of_readsBack : ∀ j : Json, j.ReadsBack → j.Short := by
  intro j h
  cases j with
  | int i => exact h
  | _ => trivial

theorem Readable.short {j : Json} (h : j.Readable) : j.Everywhere Short := Everywhere.mono short_of_readsBack j h

theorem write_of_readable {j : Json} (h : j.Readable) : j.write = .ok (print j) := by
  rw [write, (hasLong_eq_false_iff j).2 h.short]
  rfl

/-- A document is read from the octets of its text, if that starts with two ASCII characters. -/
theorem read_bytes {j : Json} (h : j.Readable) (hc : j.Carried) {a b : Nat} {t : Text} (hp : print j = a :: b :: t)
    (ha : a ≠ 0 ∧ a < 0x80) (hb : b ≠ 0 ∧ b < 0x80) :
    ∃ bs, Text.encodeUtf8 (print j) = .ok bs ∧ read (.bytes bs) = .ok j := by
  have he := encodable_print j h hc
  refine ⟨_, Text.encodeUtf8_of_encodable he, ?_⟩
  have hd := Text.decodeDetected_encodeUtf8 (hp ▸ he) ha.1 ha.2 hb.1 hb.2 (Text.encodeUtf8_of_encodable (hp ▸ he))
  rw [← hp] at hd
  simp only [read, readBytes, hd, parse_print h]
  rfl

end PubSub.Json

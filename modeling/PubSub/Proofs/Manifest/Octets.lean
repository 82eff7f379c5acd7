import PubSub.Proofs.Json.Heads
import PubSub.Proofs.Manifest.Refusal
/-!
# Manifests as octets

A text that is read as an array begins with two ASCII characters, whatever blanks stand before the array and whatever
its strings are. So nothing in the UTF-8 octets of a manifest looks like a mark or like another encoding, and they are
decoded as the text is (`decode_encodeUtf8`).
-/
namespace PubSub

namespace Json

/-! ## Arrays as octets -/

/-- The encoding of an array is told right from the octets of its text, and these are read as the array. -/
theorem read_encodeUtf8_arr {t : Text} (ht : Text.Encodable t) {items : List Json}
    (h : read (.text t) = .ok (.arr items)) :
    ∃ bs, Text.encodeUtf8 t = .ok bs ∧ Encoding.detect (bs.map UInt8.toNat) = .utf8 false ∧
      Text.decodeDetected bs = .ok t ∧ read (.bytes bs) = .ok (.arr items) := by
  have hp := parse_of_read_text h
  obtain ⟨a, b, u, rfl, ha, hb⟩ := exists_cons_of_parse_arr hp
  have hbs := Text.encodeUtf8_of_encodable ht
  have hdetect := Text.detect_encodeUtf8 ht ha.1 ha.2 hb.1 hb.2 hbs
  have hdecoded := Text.decodeDetected_of_detect ht hbs hdetect
  refine ⟨_, hbs, hdetect, hdecoded, ?_⟩
  rw [read, readBytes, hdecoded]
  exact mapError_eq_ok_iff.2 hp

theorem read_text_append_blanks {s t : Text} {j : Json} (hs : ∀ c ∈ s, IsBlank c) (h : read (.text t) = .ok j) :
    read (.text (s ++ t)) = .ok j := by
  have hskip : skipBlank (s ++ t) = skipBlank t := List.dropWhile_append_of_pos (by simpa using hs)
  have hp : parse (s ++ t) = .ok j := by
    rw [parse_eq_ok_iff, hskip]
    exact parse_eq_ok_iff.1 (parse_of_read_text h)
  cases s with
  | nil => exact h
  | cons c s =>
    have hc : c ≠ 0xFEFF := by
      rintro rfl
      exact absurd (hs _ List.mem_cons_self) (by decide)
    rw [read, readText, parseUnmarked, if_neg (by simpa using hc), hp]
    rfl

end Json

namespace Manifest

/-- What a text without lone surrogates is decoded as, its UTF-8 octets are decoded as too: they are taken for UTF-8
without a mark, and read as the text. -/
theorem decode_encodeUtf8 {t : Text} {es : List Entry} (ht : Text.Encodable t) (h : decode (.text t) = .ok es) :
    ∃ bs, Text.encodeUtf8 t = .ok bs ∧ Encoding.detect (bs.map UInt8.toNat) = .utf8 false ∧
      Text.decodeDetected bs = .ok t ∧ decode (.bytes bs) = .ok es := by
  obtain ⟨js, hj, hes⟩ := decode_eq_ok_iff_elements.1 h
  obtain ⟨bs, hbs, hdetect, hdecoded, hr⟩ := Json.read_encodeUtf8_arr ht hj
  exact ⟨bs, hbs, hdetect, hdecoded, decode_eq_ok_iff_elements.2 ⟨js, hr, hes⟩⟩

/-- A manifest that begins with blanks of every kind, and in which characters of two, three and four octets stand. -/
def indented : Text := lit "\n\t\r " ++ oneTopic (lit "größe €𐐷")

theorem decode_encodeUtf8_indented : Text.Encodable indented ∧
    decode (.text indented) = .ok [{ pubsub := lit "größe €𐐷", topic := lit "orders" }] ∧
    ∃ bs, Text.encodeUtf8 indented = .ok bs ∧ Encoding.detect (bs.map UInt8.toNat) = .utf8 false ∧
      Text.decodeDetected bs = .ok indented ∧
      decode (.bytes bs) = .ok [{ pubsub := lit "größe €𐐷", topic := lit "orders" }] := by
  have ht : Text.Encodable indented := by decide
  have h : decode (.text indented) = .ok [{ pubsub := lit "größe €𐐷", topic := lit "orders" }] := by
    have ho := decode_oneTopic fun start rest => Json.scanString_escape start (lit "größe €𐐷") rest
    obtain ⟨js, hj, hes⟩ := decode_eq_ok_iff_elements.1 ho
    exact decode_eq_ok_iff_elements.2 ⟨js, Json.read_text_append_blanks (by decide) hj, hes⟩
  exact ⟨ht, h, decode_encodeUtf8 ht h⟩

end Manifest

end PubSub

import Mathlib.Data.List.TakeWhile
import PubSub.Proofs.Placeholder.Resolution
/-!
# How a text is split into placeholders

A text has one splitting into placeholders and what stands between them, in which each placeholder begins as far left as
any can after the one before it (`IsOf`). Resolving puts something in the place of each placeholder and leaves all else
as it is (`resolve_eq_fill`): what is put there is not looked into, and an opening that begins no placeholder is text
like any other.
-/
namespace PubSub

namespace Placeholder

/-! ## One placeholder -/

/-- The name is not empty and has neither closing brace nor colon in it; the default has no closing brace in it. -/
structure WellFormed (p : Placeholder) : Prop where
  name : p.name ≠ []
  inName : ∀ c ∈ p.name, inName c = true
  inFallback : ∀ fallback ∈ p.fallback?, ∀ c ∈ fallback, inFallback c = true

/-- Some placeholder begins the text. -/
def Begins (t : Text) : Prop := ∃ p : Placeholder, p.WellFormed ∧ ∃ rest, t = p.source ++ rest

/-- What comes before the first item that stops a run, and what comes from there on. -/
theorem takeWhile_dropWhile_iff {α : Type} {p : α → Bool} {l run rest : List α} {a : α} :
    l.takeWhile p = run ∧ l.dropWhile p = a :: rest ↔ (∀ b ∈ run, p b = true) ∧ p a = false ∧ l = run ++ a :: rest := by
  constructor
  · rintro ⟨rfl, hd⟩
    have ha := List.dropWhile_get_zero_not p l (by simp [hd])
    simp only [hd, List.get_eq_getElem, List.getElem_cons_zero, Bool.not_eq_true] at ha
    refine ⟨fun b hb => List.mem_takeWhile_imp hb, ha, ?_⟩
    rw [← hd, List.takeWhile_append_dropWhile]
  · rintro ⟨hrun, ha, rfl⟩
    rw [List.takeWhile_append_of_pos hrun, List.dropWhile_append_of_pos hrun, List.takeWhile_cons_of_neg (by simp [ha]),
      List.dropWhile_cons_of_neg (by simp [ha]), List.append_nil]
    exact ⟨rfl, rfl⟩

/-- What follows the opening is read exactly if it is a name, perhaps a colon and a default, and a closing brace. -/
theorem inside?_eq_some_iff {t rest : Text} {p : Placeholder} : inside? t = some (p, rest) ↔
    p.WellFormed ∧ t = p.name ++ (p.fallback?.map (lit ":" ++ ·)).getD [] ++ lit "\x7d" ++ rest := by
  constructor
  · intro h
    unfold inside? at h
    split at h
    · cases h
    · next hname =>
      split at h
      · cases h
      · next c after hc =>
        obtain ⟨hin, hstop, ht⟩ := takeWhile_dropWhile_iff.1 ⟨rfl, hc⟩
        split at h
        · next hclose =>
          cases h
          subst hclose
          refine ⟨⟨hname, hin, ?_⟩, by simpa [lit] using ht⟩
          rintro _ ⟨⟩
        · next hopen =>
          -- The name is stopped by a closing brace or by a colon.
          obtain rfl : c = 0x3A := by
            simp only [inName, decide_eq_false_iff_not] at hstop
            by_contra hcolon
            exact hstop ⟨hopen, hcolon⟩
          split at h
          · cases h
          · next d last hd =>
            obtain ⟨hfall, hend, hafter⟩ := takeWhile_dropWhile_iff.1 ⟨rfl, hd⟩
            obtain rfl : d = 0x7D := by simpa [inFallback] using hend
            cases h
            refine ⟨⟨hname, hin, ?_⟩, ?_⟩
            · rintro _ ⟨⟩
              exact hfall
            · rw [hafter] at ht
              simpa [lit] using ht
  · obtain ⟨name, fallback?⟩ := p
    rintro ⟨⟨hname, hin, hfall⟩, rfl⟩
    unfold inside?
    cases fallback? with
    | none =>
      have ht : name ++ (none.map (lit ":" ++ ·)).getD [] ++ lit "\x7d" ++ rest = name ++ 0x7D :: rest := by simp [lit]
      obtain ⟨hrun, hdrop⟩ := takeWhile_dropWhile_iff.2 ⟨hin, (by decide : inName 0x7D = false), ht⟩
      rw [hrun, hdrop, if_neg hname]
      rfl
    | some fallback =>
      have ht : name ++ ((some fallback).map (lit ":" ++ ·)).getD [] ++ lit "\x7d" ++ rest =
          name ++ 0x3A :: (fallback ++ 0x7D :: rest) := by simp [lit]
      obtain ⟨hrun, hdrop⟩ := takeWhile_dropWhile_iff.2 ⟨hin, (by decide : inName 0x3A = false), ht⟩
      obtain ⟨hrun', hdrop'⟩ := takeWhile_dropWhile_iff.2
        ⟨hfall fallback rfl, (by decide : inFallback 0x7D = false), Eq.refl (fallback ++ 0x7D :: rest)⟩
      rw [hrun, hdrop, if_neg hname]
      simp only [hrun', hdrop']
      rfl

theorem at?_eq_some_iff {t rest : Text} {p : Placeholder} :
    at? t = some (p, rest) ↔ p.WellFormed ∧ t = p.source ++ rest := by
  unfold at? source
  simp only [Option.bind_eq_some_iff, Text.after?_eq_some_iff, inside?_eq_some_iff]
  constructor
  · rintro ⟨_, rfl, hp, rfl⟩
    exact ⟨hp, by simp⟩
  · rintro ⟨hp, rfl⟩
    exact ⟨_, by simp, hp, rfl⟩

theorem begins_iff {t : Text} : Begins t ↔ at? t ≠ none := by
  unfold Begins
  rw [Option.ne_none_iff_exists']
  simp only [Prod.exists, at?_eq_some_iff, exists_and_left]

instance (t : Text) : Decidable (Begins t) := decidable_of_iff _ begins_iff.symm

theorem source_ne_nil (p : Placeholder) : p.source ≠ [] := by
  simp [source, lit]

/-! ## All placeholders of a text -/

/-- Placeholders with what stands before the first and after each of them. -/
structure Splitting where
  first : Text
  rest : List (Placeholder × Text)

/-- No placeholder begins in the first `n` places of the text. -/
def NoneWithin (n : Nat) (t : Text) : Prop := ∀ i < n, ¬ Begins (t.drop i)

instance (n : Nat) (t : Text) : Decidable (NoneWithin n t) := inferInstanceAs (Decidable (∀ i < n, _))

/-- The text is the literal and then the placeholders, each with the literal after it. None begins earlier than it
could, and none is left out. -/
def IsCut (t l : Text) : List (Placeholder × Text) → Prop
  | [] => t = l ∧ NoneWithin l.length t
  | (p, l') :: more => ∃ rest, t = l ++ p.source ++ rest ∧ p.WellFormed ∧ NoneWithin l.length t ∧ IsCut rest l' more

def Splitting.IsOf (s : Splitting) (t : Text) : Prop := IsCut t s.first s.rest

/-- The text with something in the place of each placeholder. -/
def Splitting.fill (s : Splitting) (f : Placeholder → Text) : Text := s.first ++ s.rest.flatMap fun m => f m.1 ++ m.2

/-- Pieces as a splitting. -/
def Splitting.ofPieces : List Piece → Splitting
  | [] => ⟨[], []⟩
  | .literal l :: ps => ⟨l ++ (ofPieces ps).first, (ofPieces ps).rest⟩
  | .hole p :: ps => ⟨[], (p, (ofPieces ps).first) :: (ofPieces ps).rest⟩

theorem noneWithin_succ_iff {n : Nat} {c : CodePoint} {t : Text} :
    NoneWithin (n + 1) (c :: t) ↔ ¬ Begins (c :: t) ∧ NoneWithin n t := by
  unfold NoneWithin
  rw [Nat.forall_lt_succ_left]
  rfl

/-- Where no placeholder begins, the first literal does. -/
theorem isCut_cons_iff {c : CodePoint} {t l : Text} {more : List (Placeholder × Text)} (h : at? (c :: t) = none) :
    IsCut (c :: t) l more ↔ ∃ l', l = c :: l' ∧ IsCut t l' more := by
  have hb : ¬ Begins (c :: t) := fun hb => begins_iff.1 hb h
  cases l with
  | nil =>
    refine iff_of_false ?_ (by simp)
    cases more with
    | nil => simp [IsCut]
    | cons m more =>
      rintro ⟨rest, ht, hp, -⟩
      exact hb ⟨m.1, hp, rest, ht⟩
  | cons d l =>
    have hl : (∃ l', d :: l = c :: l' ∧ IsCut t l' more) ↔ c = d ∧ IsCut t l more := by
      constructor
      · rintro ⟨_, ⟨⟩, hm⟩
        exact ⟨rfl, hm⟩
      · rintro ⟨rfl, hm⟩
        exact ⟨l, rfl, hm⟩
    rw [hl]
    cases more with
    | nil =>
      simp only [IsCut, List.length_cons, noneWithin_succ_iff, hb, not_false_eq_true, true_and, List.cons.injEq,
        and_assoc]
    | cons m more =>
      simp only [IsCut, List.length_cons, noneWithin_succ_iff, hb, not_false_eq_true, true_and, List.cons_append,
        List.cons.injEq, and_assoc, exists_and_left]

theorem noneWithin_of_isCut {t l : Text} {more : List (Placeholder × Text)} (h : IsCut t l more) :
    NoneWithin l.length t := by
  cases more with
  | nil => exact h.2
  | cons m more =>
    obtain ⟨rest, -, -, hn, -⟩ := h
    exact hn

/-- Where a placeholder begins, it is the first. -/
theorem isCut_of_at?_iff {t rest l : Text} {p : Placeholder} {more : List (Placeholder × Text)}
    (h : at? t = some (p, rest)) :
    IsCut t l more ↔ l = [] ∧ ∃ l' more', more = (p, l') :: more' ∧ IsCut rest l' more' := by
  constructor
  · intro hc
    have hb : Begins t := begins_iff.2 (by simp [h])
    obtain rfl : l = [] := by
      by_contra hl
      exact noneWithin_of_isCut hc 0 (List.length_pos_iff.2 hl) hb
    cases more with
    | nil =>
      obtain ⟨rfl, -⟩ := hc
      cases h
    | cons m more =>
      obtain ⟨rest', ht, hp, -, hc⟩ := hc
      have hm : at? t = some (m.1, rest') := at?_eq_some_iff.2 ⟨hp, ht⟩
      rw [h] at hm
      cases hm
      exact ⟨rfl, m.2, more, rfl, hc⟩
  · rintro ⟨rfl, l', more', rfl, hc⟩
    obtain ⟨hp, rfl⟩ := at?_eq_some_iff.1 h
    exact ⟨rest, rfl, hp, nofun, hc⟩

theorem isCut_nil_iff {l : Text} {more : List (Placeholder × Text)} : IsCut [] l more ↔ l = [] ∧ more = [] := by
  constructor
  · intro hc
    cases more with
    | nil => exact ⟨hc.1.symm, rfl⟩
    | cons m more =>
      obtain ⟨rest, ht, -⟩ := hc
      simp [source_ne_nil] at ht
  · rintro ⟨rfl, rfl⟩
    exact ⟨rfl, nofun⟩

theorem ofPieces_push (c : CodePoint) (ps : List Piece) :
    Splitting.ofPieces (Piece.push c ps) = ⟨c :: (Splitting.ofPieces ps).first, (Splitting.ofPieces ps).rest⟩ := by
  unfold Piece.push
  split <;> simp [Splitting.ofPieces]

/-- The pieces of a text are its only splitting. -/
theorem isOf_iff {t : Text} {s : Splitting} : s.IsOf t ↔ s = .ofPieces (pieces t) := by
  obtain ⟨l, more⟩ := s
  unfold Splitting.IsOf
  fun_induction pieces t generalizing l more with
  | case1 =>
    rw [isCut_nil_iff, Splitting.ofPieces, Splitting.mk.injEq]
  | case2 c t p rest h ih =>
    simp only [isCut_of_at?_iff h, ih, Splitting.ofPieces, Splitting.mk.injEq]
    refine and_congr_right fun _ => ⟨?_, ?_⟩
    · rintro ⟨l', more', rfl, hs⟩
      rw [← hs]
    · rintro rfl
      exact ⟨_, _, rfl, rfl⟩
  | case3 c t h ih =>
    simp only [isCut_cons_iff h, ih, ofPieces_push, Splitting.mk.injEq]
    constructor
    · rintro ⟨l', rfl, hs⟩
      rw [← hs]
      exact ⟨rfl, rfl⟩
    · rintro ⟨rfl, rfl⟩
      exact ⟨_, rfl, rfl⟩

/-- What pieces are replaced by, put together. -/
theorem fill_ofPieces (f : Placeholder → Text) (ps : List Piece) :
    (Splitting.ofPieces ps).fill f = ps.flatMap fun
      | .literal l => l
      | .hole p => f p := by
  induction ps with
  | nil => rfl
  | cons piece ps ih =>
    rw [List.flatMap_cons, ← ih]
    cases piece with
    | literal l => simp [Splitting.fill, Splitting.ofPieces]
    | hole p => simp [Splitting.fill, Splitting.ofPieces]

theorem mem_rest_ofPieces {ps : List Piece} {p : Placeholder} (h : .hole p ∈ ps) :
    ∃ m ∈ (Splitting.ofPieces ps).rest, m.1 = p := by
  induction ps with
  | nil => cases h
  | cons piece ps ih =>
    cases piece with
    | literal l =>
      exact ih (by simpa using h)
    | hole q =>
      rcases List.mem_cons.1 h with hq | h
      · cases hq
        exact ⟨_, List.mem_cons_self, rfl⟩
      · obtain ⟨m, hm, rfl⟩ := ih h
        exact ⟨m, List.mem_cons_of_mem _ hm, rfl⟩

end Placeholder

/-! ## Names between blanks -/

namespace Text

variable {t u : Text}

theorem not_isBlank_of_dropWhile {c : CodePoint} (h : c ∈ (t.dropWhile fun c => c.IsBlank).head?) : ¬ c.IsBlank := by
  have hc := List.head?_dropWhile_not (fun c : CodePoint => decide c.IsBlank) t
  rw [Option.mem_def.1 h] at hc
  exact of_decide_eq_false hc

theorem blank_takeWhile (t : Text) : Blank (t.takeWhile fun c => c.IsBlank) := by
  intro c hc
  simpa using List.mem_takeWhile_imp hc

theorem dropWhile_of_blank {before rest : Text} (hb : Blank before) (hr : ∀ c ∈ rest.head?, ¬ c.IsBlank) :
    (before ++ rest).dropWhile (fun c => c.IsBlank) = rest := by
  rw [List.dropWhile_append_of_pos fun c hc => decide_eq_true (hb c hc)]
  cases rest with
  | nil => rfl
  | cons c rest => exact List.dropWhile_cons_of_neg (by simpa using hr c rfl)

/-- What is trimmed stands between blanks, and neither begins nor ends with one. -/
theorem trim_eq_iff : trim t = u ↔ ∃ before after, t = before ++ u ++ after ∧ Blank before ∧ Blank after ∧
    (∀ c ∈ u.head?, ¬ c.IsBlank) ∧ ∀ c ∈ u.getLast?, ¬ c.IsBlank := by
  constructor
  · rintro rfl
    let d := t.dropWhile fun c => c.IsBlank
    have hd : trim t ++ (d.reverse.takeWhile fun c => c.IsBlank).reverse = d := by
      show (d.reverse.dropWhile _).reverse ++ _ = d
      rw [← List.reverse_append, List.takeWhile_append_dropWhile, List.reverse_reverse]
    refine ⟨t.takeWhile fun c => c.IsBlank, (d.reverse.takeWhile fun c => c.IsBlank).reverse, ?_, blank_takeWhile t,
      ?_, ?_, ?_⟩
    · rw [List.append_assoc, hd, List.takeWhile_append_dropWhile]
    · intro c hc
      exact blank_takeWhile _ c (List.mem_reverse.1 hc)
    · intro c hc
      refine not_isBlank_of_dropWhile (t := t) ?_
      show c ∈ d.head?
      rw [← hd, List.head?_append, Option.mem_def.1 hc]
      rfl
    · intro c hc
      rw [trim, trimBy, List.getLast?_reverse] at hc
      exact not_isBlank_of_dropWhile hc
  · rintro ⟨before, after, rfl, hb, ha, hhead, hlast⟩
    have hr : Blank after.reverse := fun c hc => ha c (List.mem_reverse.1 hc)
    rw [trim, trimBy, List.append_assoc]
    cases u with
    | nil =>
      have hall : (before ++ after).dropWhile (fun c => c.IsBlank) = [] :=
        List.dropWhile_eq_nil_iff.2 fun c hc => decide_eq_true ((List.mem_append.1 hc).elim (hb c) (ha c))
      rw [List.nil_append, hall]
      rfl
    | cons c u =>
      have hfront : (before ++ (c :: u ++ after)).dropWhile (fun c => c.IsBlank) = c :: u ++ after :=
        dropWhile_of_blank hb hhead
      have hback : (after.reverse ++ (c :: u).reverse).dropWhile (fun c => c.IsBlank) = (c :: u).reverse :=
        dropWhile_of_blank hr (by rwa [List.head?_reverse])
      rw [hfront, List.reverse_append, hback, List.reverse_reverse]

end Text

/-! ## What takes the place of placeholders -/

namespace Resolver

/-- The value that is given for a name. -/
def given? (res : Resolver) (name : Text) : Option Text :=
  match Assoc.find? (.text name) res.values with
  | some (.text t) => some t
  | _ => none

/-- The octets of a name: the octet that a surrogate stands for, and those that UTF-8 has for any other character. -/
def variableOctets (name : Text) : Bytes :=
  (name.flatMap fun c => if Environment.IsOctet c then [c - 0xDC00] else Text.utf8Octets c).map UInt8.ofNat

/-- The value of the first variable whose name has these octets. -/
def exported? (res : Resolver) (name : Text) : Option Text :=
  (res.environment.find? fun (key, _) => key = variableOctets name).map Prod.snd

/-- The value given for a name, or else its value in the environment, if that is used. -/
def found? (res : Resolver) (name : Text) : Option Text :=
  (res.given? name).or (if res.useEnvironment then res.exported? name else none)

/-- What stands for a placeholder: the value of its name without the blanks around it (`Text.trim_eq_iff`), or else its
default. -/
def standing? (res : Resolver) (p : Placeholder) : Option Text := (res.found? (Text.trim p.name)).or p.fallback?

/-- What takes the place of a placeholder: what stands for it, or the placeholder itself. -/
def replacement (res : Resolver) (p : Placeholder) : Text := (res.standing? p).getD p.source

section Replacement
variable {res : Resolver} {p : Placeholder}

/-- A name that a variable can have names the variable with its octets. -/
theorem get?_eq_exported? {name : Text} (h : ∀ c ∈ name, c.IsScalar ∨ Environment.IsOctet c) :
    res.environment.get? name = .ok (res.exported? name) := by
  have ho : Environment.octetsOf name = .ok (variableOctets name) := by
    rw [Environment.octetsOf, Text.refusedByUtf8_eq_none_iff.2 fun c hc => decide_eq_true (h c hc)]
    rfl
  have hf : Assoc.find? (variableOctets name) res.environment = res.exported? name := by
    rw [Assoc.find?_eq_findSome?, exported?, List.find?_eq_findSome?_guard, List.map_findSome?]
    congr 1
    funext ⟨key, value⟩
    by_cases hk : key = variableOctets name <;> simp [Option.guard, hk]
  rw [Environment.get?, ho, ← hf]
  rfl

theorem lookup_eq (hres : res.IsTextual) (h : res.CanLookUp p) :
    res.lookup (.text (Text.trim p.name)) = .ok (Value.ofOption .text (res.found? (Text.trim p.name))) := by
  rw [lookup_text]
  unfold found? given?
  cases hf : Assoc.find? (Value.text (Text.trim p.name)) res.values with
  | some v =>
    obtain ⟨t, rfl⟩ := eq_text_of_find? hres hf
    rfl
  | none =>
    cases hu : res.useEnvironment with
    | false => rfl
    | true =>
      have hname := (h.resolve_left (by simp [hf])).resolve_left (by simp [hu])
      simp only [if_true, lookupVariable, get?_eq_exported? hname]
      rfl

/-- A placeholder that can be looked up is replaced by what stands for it. Where nothing does, it stays or is
refused. -/
theorem expand_hole (hres : res.IsTextual) (h : res.CanLookUp p) : res.expand (.hole p) =
    match res.standing? p with
    | some t => .ok (.text t)
    | none => if res.strict then .error (.refused (.unresolved p.source)) else .ok (.text p.source) := by
  unfold expand standing?
  simp only [lookup_eq hres h]
  cases res.found? (Text.trim p.name) with
  | some t => rfl
  | none => rfl

end Replacement

theorem concat_map_text (index : Nat) (ts : List Text) : concat index (ts.map .text) = .ok ts.flatten := by
  induction ts generalizing index with
  | nil => rfl
  | cons t ts ih =>
    rw [List.map_cons, concat, ih]
    rfl

/-- Where each piece is replaced by a text, the text is resolved to these texts put together. -/
theorem resolveText_eq {res : Resolver} {t : Text} {f : Placeholder.Piece → Text}
    (h : ∀ piece ∈ Placeholder.pieces t, res.expand piece = .ok (.text (f piece))) :
    res.resolveText t = .ok ((Placeholder.pieces t).flatMap f) := by
  have hm : (Placeholder.pieces t).mapM res.expand = .ok (((Placeholder.pieces t).map f).map .text) := by
    rw [mapM_eq_ok_iff, List.map_map, List.forall₂_map_right_iff, List.forall₂_same]
    exact h
  unfold resolveText
  rw [hm, List.flatMap_def]
  exact concat_map_text 0 _

end Resolver

open Placeholder (Splitting)

/-- A text is split in one way only into placeholders, each as far left as it can be after the one before it, and what
stands between them. A resolver that is not strict, of values that are texts, puts the replacement of each placeholder
in its place, if it can be looked up, and leaves everything else as it is. -/
theorem resolve_eq_fill {res : Resolver} (hres : res.IsTextual) (hs : res.strict = false) (t : Text) :
    (∃! s : Splitting, s.IsOf t) ∧
    ∀ s : Splitting, s.IsOf t → (∀ m ∈ s.rest, res.CanLookUp m.1) →
      res.resolve (.text t) = .ok (s.fill res.replacement) := by
  refine ⟨⟨_, Placeholder.isOf_iff.2 rfl, fun s h => Placeholder.isOf_iff.1 h⟩, ?_⟩
  intro s h hlook
  obtain rfl := Placeholder.isOf_iff.1 h
  rw [Placeholder.fill_ofPieces]
  apply Resolver.resolveText_eq
  intro piece hp
  cases piece with
  | literal l => rfl
  | hole p =>
    obtain ⟨m, hm, rfl⟩ := Placeholder.mem_rest_ofPieces hp
    rw [Resolver.expand_hole hres (hlook m hm), hs]
    show _ = Except.ok (Value.text (res.replacement m.1))
    unfold Resolver.replacement
    cases res.standing? m.1 <;> rfl

/-- A resolver that has one value, which looks like a placeholder, and one variable, whose name has two octets. -/
def looping : Resolver where
  values := [(.text (lit "z"), .text (lit "$\x7bz\x7d"))]
  environment := [([0xC3, 0xB6], lit "9")]

/-- An opening within a name, a closing brace too many, names between blanks, and an opening without a name. -/
def nested : Text := lit "$\x7b$\x7bx:-d\x7d\x7d$\x7b z \x7d-$\x7b\tö\x7d$\x7b\x7d"

/-- The default ends at the first closing brace, the value is not looked into, the variable is found by the octets of
its name, and the last opening stays. -/
theorem resolve_eq_fill_nested : looping.IsTextual ∧ looping.strict = false ∧ looping.useEnvironment = true ∧
    ∃ s : Splitting, s.IsOf nested ∧ (∀ m ∈ s.rest, looping.CanLookUp m.1) ∧ s.rest.length = 3 ∧
      looping.resolve (.text nested) = .ok (lit "-d\x7d$\x7bz\x7d-9$\x7b\x7d") := by
  have hres : looping.IsTextual := by
    intro p hp
    obtain rfl := List.mem_singleton.1 hp
    exact ⟨_, rfl⟩
  let s : Splitting :=
    ⟨[], [(⟨lit "$\x7bx", some (lit "-d")⟩, lit "\x7d"), (⟨lit " z ", none⟩, lit "-"),
      (⟨lit "\tö", none⟩, lit "$\x7b\x7d")]⟩
  have hsplit : s.IsOf nested := by
    refine ⟨_, rfl, ⟨by decide, by decide, by decide⟩, nofun, _, rfl, ⟨by decide, by decide, nofun⟩, ?_, _, rfl,
      ⟨by decide, by decide, nofun⟩, ?_, rfl, ?_⟩
    all_goals decide
  have hlook : ∀ m ∈ s.rest, looping.CanLookUp m.1 := by
    intro m hm
    exact .inr (.inr ((by decide : ∀ m ∈ s.rest, ∀ c ∈ Text.trim m.1.name, c.IsScalar ∨ Environment.IsOctet c) m hm))
  exact ⟨hres, rfl, rfl, s, hsplit, hlook, rfl, (resolve_eq_fill hres rfl nested).2 s hsplit hlook⟩

end PubSub

import PubSub.Proofs.Placeholder.Splitting
/-!
# Strict and lenient resolvers

A strict resolver differs from a lenient one with the same sources in one way only: of the placeholders for which
nothing stands it refuses the first, and names it as it is written. Where something stands for each placeholder of a
text, both resolve the text alike (`strict_resolve`).
-/
namespace PubSub

open Placeholder (Splitting)

namespace Placeholder

/-- The placeholder that a piece is, if it is one. -/
def Piece.hole? : Piece → Option Placeholder
  | .literal _ => none
  | .hole p => some p

/-- The placeholders of a splitting, from left to right. -/
def Splitting.placeholders (s : Splitting) : List Placeholder := s.rest.map Prod.fst

theorem placeholders_ofPieces (ps : List Piece) :
    (Splitting.ofPieces ps).placeholders = ps.filterMap Piece.hole? := by
  induction ps with
  | nil => rfl
  | cons piece ps ih =>
    rw [List.filterMap_cons, ← ih]
    cases piece <;> rfl

theorem mem_holes_iff {ps : List Piece} {p : Placeholder} : p ∈ ps.filterMap Piece.hole? ↔ .hole p ∈ ps := by
  rw [List.mem_filterMap]
  constructor
  · rintro ⟨piece, hp, he⟩
    cases piece with
    | literal l => cases he
    | hole q =>
      cases he
      exact hp
  · intro hp
    exact ⟨_, hp, rfl⟩

end Placeholder

namespace Resolver

/-- The resolver with the same sources that refuses a placeholder for which nothing stands. -/
def strictly (res : Resolver) : Resolver := { res with strict := true }

/-- The resolver with the same sources that leaves such a placeholder as it is. -/
def leniently (res : Resolver) : Resolver := { res with strict := false }

/-- A value or a default stands for the placeholder. -/
def StandsFor (res : Resolver) (p : Placeholder) : Prop := (res.standing? p).isSome

/-! ## One placeholder -/

section Expansion
variable {res : Resolver} {p : Placeholder}

/-- Where something stands for a placeholder, it does not matter how strict the resolver is. -/
theorem expand_of_standsFor (hres : res.IsTextual) (hp : res.CanLookUp p) (h : res.StandsFor p) :
    res.expand (.hole p) = .ok (.text (res.replacement p)) := by
  obtain ⟨t, ht⟩ := Option.isSome_iff_exists.1 h
  rw [expand_hole hres hp, replacement, ht]
  rfl

theorem expand_strictly_of_not_standsFor (hres : res.IsTextual) (hp : res.CanLookUp p) (h : ¬ res.StandsFor p) :
    res.strictly.expand (.hole p) = .error (.refused (.unresolved p.source)) := by
  have hn : res.strictly.standing? p = none := Option.not_isSome_iff_eq_none.1 h
  rw [@expand_hole res.strictly p hres hp, hn]
  rfl

theorem standsFor_of_expand_strictly (hres : res.IsTextual) (hp : res.CanLookUp p) {v : Value}
    (h : res.strictly.expand (.hole p) = .ok v) : res.StandsFor p := by
  by_contra hn
  rw [expand_strictly_of_not_standsFor hres hp hn] at h
  cases h

end Expansion

/-! ## A text -/

section Texts
variable {res : Resolver} {t : Text} {s : Splitting}

/-- Where something stands for each placeholder, it takes its place. -/
theorem resolve_of_standsFor (hres : res.IsTextual) (hs : s.IsOf t) (hlook : ∀ p ∈ s.placeholders, res.CanLookUp p)
    (h : ∀ p ∈ s.placeholders, res.StandsFor p) : res.resolve (.text t) = .ok (s.fill res.replacement) := by
  obtain rfl := Placeholder.isOf_iff.1 hs
  rw [Placeholder.placeholders_ofPieces] at hlook h
  rw [Placeholder.fill_ofPieces]
  apply resolveText_eq
  intro piece hp
  cases piece with
  | literal l => rfl
  | hole p =>
    have hm := Placeholder.mem_holes_iff.2 hp
    exact expand_of_standsFor hres (hlook p hm) (h p hm)

/-- What refuses a text is its first placeholder for which nothing stands. -/
theorem resolve_strictly_cases (hres : res.IsTextual) (hs : s.IsOf t)
    (hlook : ∀ p ∈ s.placeholders, res.CanLookUp p) :
    (∀ p ∈ s.placeholders, res.StandsFor p) ∨
    ∃ before p after, s.placeholders = before ++ p :: after ∧ (∀ q ∈ before, res.StandsFor q) ∧ ¬ res.StandsFor p ∧
      res.strictly.resolve (.text t) = .error (.refused (.unresolved p.source)) := by
  obtain rfl := Placeholder.isOf_iff.1 hs
  rw [Placeholder.placeholders_ofPieces] at hlook ⊢
  -- A piece that was expanded is no placeholder for which nothing stands.
  have hstands : ∀ ps vs, ps ⊆ Placeholder.pieces t → ps.mapM res.strictly.expand = .ok vs →
      ∀ q ∈ ps.filterMap Placeholder.Piece.hole?, res.StandsFor q := by
    intro ps vs hsub hvs q hq
    have hm := Placeholder.mem_holes_iff.1 hq
    obtain ⟨v, -, hv⟩ := exists_of_mem_left (mapM_eq_ok_iff.1 hvs) hm
    exact standsFor_of_expand_strictly hres (hlook q (Placeholder.mem_holes_iff.2 (hsub hm))) hv
  cases hr : (Placeholder.pieces t).mapM res.strictly.expand with
  | ok vs => exact .inl (hstands _ vs (List.Subset.refl _) hr)
  | error e =>
    obtain ⟨ps, piece, rest, ht, ⟨vs, hvs⟩, he⟩ := mapM_eq_error_iff.1 hr
    cases piece with
    | literal l => cases he
    | hole p =>
      have hp : res.CanLookUp p := hlook p (Placeholder.mem_holes_iff.2 (by simp [ht]))
      have hn : ¬ res.StandsFor p := by
        intro h
        cases he.symm.trans (@expand_of_standsFor res.strictly p hres hp h)
      obtain rfl : .refused (.unresolved p.source) = e :=
        Except.error.inj ((expand_strictly_of_not_standsFor hres hp hn).symm.trans he)
      refine .inr ⟨ps.filterMap Placeholder.Piece.hole?, p, rest.filterMap Placeholder.Piece.hole?, ?_, ?_, hn, ?_⟩
      · rw [ht, List.filterMap_append]
        rfl
      · exact hstands ps vs (by simp [ht]) hvs
      · show res.strictly.resolveText t = _
        unfold resolveText
        rw [hr]
        rfl

end Texts

end Resolver

/-- A text has one splitting (`Placeholder.isOf_iff`). A strict resolver, of values that are texts, resolves the text
exactly if a value or a default stands for each placeholder of the splitting, and to what the lenient resolver with the
same sources resolves it to. Otherwise it refuses the first placeholder for which nothing stands, as it is written in
the text. -/
theorem strict_resolve {res : Resolver} (hres : res.IsTextual) {t : Text} {s : Splitting} (hs : s.IsOf t)
    (hlook : ∀ p ∈ s.placeholders, res.CanLookUp p) :
    ((∃ u, res.strictly.resolve (.text t) = .ok u) ↔ ∀ p ∈ s.placeholders, res.StandsFor p) ∧
    (∀ u, res.strictly.resolve (.text t) = .ok u → res.leniently.resolve (.text t) = .ok u) ∧
    ((∃ p ∈ s.placeholders, ¬ res.StandsFor p) →
      ∃ before p after, s.placeholders = before ++ p :: after ∧ (∀ q ∈ before, res.StandsFor q) ∧ ¬ res.StandsFor p ∧
        res.strictly.resolve (.text t) = .error (.refused (.unresolved p.source))) := by
  have hstrict := @Resolver.resolve_of_standsFor res.strictly t s hres hs hlook
  have hlenient := @Resolver.resolve_of_standsFor res.leniently t s hres hs hlook
  rcases Resolver.resolve_strictly_cases hres hs hlook with hall | ⟨before, p, after, hp, hq, hn, he⟩
  · refine ⟨iff_of_true ⟨_, hstrict hall⟩ hall, ?_, ?_⟩
    · intro u hu
      rw [← hu, hstrict hall]
      exact hlenient hall
    · rintro ⟨p, hp, hn⟩
      exact absurd (hall p hp) hn
  · refine ⟨iff_of_false ?_ ?_, ?_, ?_⟩
    · simp [he]
    · intro hall
      exact hn (hall p (by simp [hp]))
    · simp [he]
    · intro _
      exact ⟨before, p, after, hp, hq, hn, he⟩

/-- A resolver that knows `z`, from the environment, and nothing else. -/
def knowing : Resolver := { environment := [([0x7A], lit "1")] }

/-- A name that is known, one with an empty default, one with neither, and an opening that begins no placeholder. -/
def partlyKnown : Text := lit "${z}${x:}-${ y }${}"

/-- The third placeholder is refused with the blanks around its name. -/
theorem strict_resolve_partlyKnown : knowing.IsTextual ∧ knowing.useEnvironment = true ∧
    ∃ s : Splitting, s.IsOf partlyKnown ∧ (∀ p ∈ s.placeholders, knowing.CanLookUp p) ∧
      (¬ ∃ u, knowing.strictly.resolve (.text partlyKnown) = .ok u) ∧
      knowing.strictly.resolve (.text partlyKnown) = .error (.refused (.unresolved (lit "${ y }"))) := by
  have hres : knowing.IsTextual := by
    intro p hp
    cases hp
  let s : Splitting :=
    ⟨[], [(⟨lit "z", none⟩, []), (⟨lit "x", some []⟩, lit "-"), (⟨lit " y ", none⟩, lit "${}")]⟩
  have hsplit : s.IsOf partlyKnown := by
    refine ⟨_, rfl, ⟨by decide, by decide, nofun⟩, nofun, _, rfl, ⟨by decide, by decide, by decide⟩, nofun, _, rfl,
      ⟨by decide, by decide, nofun⟩, ?_, rfl, ?_⟩
    all_goals decide
  have hlook : ∀ p ∈ s.placeholders, knowing.CanLookUp p := by
    intro p hp
    exact .inr (.inr
      ((by decide : ∀ p ∈ s.placeholders, ∀ c ∈ Text.trim p.name, c.IsScalar ∨ Environment.IsOctet c) p hp))
  have hy : ¬ knowing.StandsFor ⟨lit " y ", none⟩ := nofun
  obtain ⟨hok, -, herror⟩ := strict_resolve hres hsplit hlook
  obtain ⟨before, p, after, hp, -, hn, he⟩ := herror ⟨_, .tail _ (.tail _ (.head _)), hy⟩
  refine ⟨hres, rfl, s, hsplit, hlook, ?_, ?_⟩
  · intro h
    exact hy (hok.1 h _ (.tail _ (.tail _ (.head _))))
  · -- Of the three placeholders something stands for the first two.
    have hm : p ∈ s.placeholders := by simp [hp]
    have hcases : p = ⟨lit "z", none⟩ ∨ p = ⟨lit "x", some []⟩ ∨ p = ⟨lit " y ", none⟩ := by
      simpa [s, Splitting.placeholders] using hm
    rcases hcases with rfl | rfl | rfl
    · exact absurd rfl hn
    · exact absurd rfl hn
    · exact he

end PubSub

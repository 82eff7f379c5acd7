import PubSub.Placeholder.Resolver
import PubSub.Proofs.Assoc
import PubSub.Proofs.Outcome
import PubSub.Proofs.Text.Utf8
/-!
# What stops a resolver

A placeholder without value is refused at worst. What fails for another reason is what is no text, or the name of a
placeholder that is looked for in the environment and has no octets (`failsOnly_resolve`).
-/
namespace PubSub

namespace Resolver

/-- The name of a placeholder can be looked up: a value is given for it, or only values are looked at, or it is a name
that a variable can have. -/
def CanLookUp (res : Resolver) (p : Placeholder) : Prop :=
  (∃ v, Assoc.find? (.text (Text.trim p.name)) res.values = some v) ∨ res.useEnvironment = false ∨
    ∀ c ∈ Text.trim p.name, c.IsScalar ∨ Environment.IsOctet c

/-- A text each of whose placeholders that is reached can be looked up. -/
def Reads (res : Resolver) (v : Value) : Prop :=
  ∃ t, v = .text t ∧ ∀ ps p rest, Placeholder.pieces t = ps ++ .hole p :: rest →
    (∃ vs, ps.mapM res.expand = .ok vs) → res.CanLookUp p

/-- All values are texts. -/
def IsTextual (res : Resolver) : Prop := ∀ p ∈ res.values, ∃ t, p.2 = .text t

/-! ## What is found is a text -/

section Found
variable {res : Resolver}

theorem lookup_text (name : Text) :
    res.lookup (.text name) = match Assoc.find? (.text name) res.values with
      | some value => .ok value
      | none => if res.useEnvironment then res.lookupVariable (.text name) else .ok .none :=
  rfl

theorem eq_text_of_find? (hres : res.IsTextual) {name : Text} {v : Value}
    (h : Assoc.find? (.text name) res.values = some v) : ∃ t, v = .text t := by
  rw [Assoc.find?_eq_findSome?] at h
  obtain ⟨p, hp, he⟩ := List.exists_of_findSome?_eq_some h
  split at he
  · cases he
    exact hres p hp
  · cases he

theorem lookup_eq_text (hres : res.IsTextual) {name : Text} {v : Value} (h : res.lookup (.text name) = .ok v) :
    v = .none ∨ ∃ t, v = .text t := by
  rw [lookup_text] at h
  split at h
  · rename_i value hf
    cases h
    exact .inr (eq_text_of_find? hres hf)
  · split at h
    · simp only [lookupVariable, bind_eq_ok_iff, pure_eq_ok_iff] at h
      obtain ⟨_ | t, -, rfl⟩ := h
      · exact .inl rfl
      · exact .inr ⟨t, rfl⟩
    · cases h
      exact .inl rfl

/-- What takes the place of a piece is a text. -/
theorem expand_eq_text (hres : res.IsTextual) {piece : Placeholder.Piece} {v : Value} (h : res.expand piece = .ok v) :
    ∃ t, v = .text t := by
  cases piece with
  | literal t =>
    cases h
    exact ⟨t, rfl⟩
  | hole p =>
    simp only [expand, bind_eq_ok_iff] at h
    obtain ⟨value, hv, h⟩ := h
    rcases lookup_eq_text hres hv with rfl | ⟨t, rfl⟩
    · change res.absent p = .ok v at h
      unfold absent at h
      split at h
      · cases h
        exact ⟨_, rfl⟩
      · split at h
        · cases h
        · cases h
          exact ⟨_, rfl⟩
    · cases h
      exact ⟨t, rfl⟩

end Found

/-! ## What is refused -/

theorem octetsOf_isOk_iff {name : Text} :
    (∃ octets, Environment.octetsOf name = .ok octets) ↔ ∀ c ∈ name, c.IsScalar ∨ Environment.IsOctet c := by
  unfold Environment.octetsOf
  cases h : Text.refusedByUtf8 (fun c => c.IsScalar ∨ Environment.IsOctet c) name with
  | some fault =>
    refine iff_of_false nofun fun hn => ?_
    rw [Text.refusedByUtf8_eq_none_iff.2 fun c hc => decide_eq_true (hn c hc)] at h
    cases h
  | none => exact iff_of_true ⟨_, rfl⟩ fun c hc => of_decide_eq_true (Text.refusedByUtf8_eq_none_iff.1 h c hc)

/-- Errors of a kind that are refused placeholders, all of which are of that kind. -/
structure IsRefusal (P : ResolveError → Prop) : Prop where
  unresolved : ∀ source, P (.refused (.unresolved source))
  refused : ∀ e, P e → ∃ c, e = .refused c

namespace IsRefusal

variable {P : ResolveError → Prop} {res : Resolver}

theorem failsOnly_lookupVariable (hP : IsRefusal P) {name : Text} :
    FailsOnly P (res.lookupVariable (.text name)) ↔ ∀ c ∈ name, c.IsScalar ∨ Environment.IsOctet c := by
  rw [← octetsOf_isOk_iff]
  unfold lookupVariable Environment.get?
  rw [failsOnly_bind, failsOnly_mapError, failsOnly_bind]
  cases Environment.octetsOf name with
  | error fault => exact iff_of_false (fun h => nomatch hP.refused _ (h.1.1 fault rfl)) nofun
  | ok octets =>
    exact iff_of_true ⟨⟨failsOnly_ok _, fun _ _ => failsOnly_ok _⟩, fun _ _ => failsOnly_ok _⟩ ⟨octets, rfl⟩

theorem failsOnly_lookup (hP : IsRefusal P) {p : Placeholder} :
    FailsOnly P (res.lookup (.text (Text.trim p.name))) ↔ res.CanLookUp p := by
  unfold CanLookUp
  rw [lookup_text]
  cases Assoc.find? (Value.text (Text.trim p.name)) res.values with
  | some v => exact iff_of_true (failsOnly_ok v) (.inl ⟨v, rfl⟩)
  | none =>
    cases res.useEnvironment with
    | false => exact iff_of_true (failsOnly_ok _) (.inr (.inl rfl))
    | true => simpa using hP.failsOnly_lookupVariable

/-- A placeholder that finds nothing is refused at worst. -/
theorem failsOnly_expand (hP : IsRefusal P) {p : Placeholder} :
    FailsOnly P (res.expand (.hole p)) ↔ res.CanLookUp p := by
  unfold expand
  rw [failsOnly_bind, hP.failsOnly_lookup, and_iff_left]
  intro v _
  cases v with
  | none =>
    show FailsOnly _ (res.absent p)
    unfold absent
    split
    · exact failsOnly_ok _
    · split
      · exact failsOnly_error.2 (hP.unresolved _)
      · exact failsOnly_ok _
  | _ => exact failsOnly_ok _

end IsRefusal

theorem failsOnly_concat {P : ResolveError → Prop} {vs : List Value} (h : ∀ v ∈ vs, ∃ t, v = .text t) (index : Nat) :
    FailsOnly P (concat index vs) := by
  induction vs generalizing index with
  | nil => exact failsOnly_ok _
  | cons v vs ih =>
    obtain ⟨t, rfl⟩ := h v List.mem_cons_self
    exact failsOnly_map.2 (ih (fun v hv => h v (List.mem_cons_of_mem _ hv)) _)

/-- Resolving a value is refused at worst exactly if the value can be read. -/
theorem failsOnly_resolve {P : ResolveError → Prop} (hP : IsRefusal P) {res : Resolver} (hres : res.IsTextual)
    {v : Value} : FailsOnly P (res.resolve v) ↔ res.Reads v := by
  cases v with
  | text t =>
    show FailsOnly _ (res.resolveText t) ↔ _
    unfold resolveText
    rw [failsOnly_bind, failsOnly_mapM, and_iff_left]
    · constructor
      · intro h
        exact ⟨t, rfl, fun ps p rest ht hps => hP.failsOnly_expand.1 (h ps _ rest ht hps)⟩
      · rintro ⟨_, ⟨⟩, h⟩ ps piece rest ht hps
        cases piece with
        | literal t => exact failsOnly_ok _
        | hole p => exact hP.failsOnly_expand.2 (h ps p rest ht hps)
    · intro vs hvs
      refine failsOnly_concat (fun v hv => ?_) 0
      obtain ⟨piece, -, hp⟩ := exists_of_mem_right (mapM_eq_ok_iff.1 hvs) hv
      exact expand_eq_text hres hp
  | _ => exact iff_of_false (fun h => nomatch hP.refused _ (h _ rfl)) nofun

end Resolver

/-! ## Texts without placeholders -/

/-- A text without a dollar sign is one piece. -/
theorem Placeholder.pieces_of_plain {t : Text} (h : 0x24 ∉ t) : pieces t = if t = [] then [] else [.literal t] := by
  induction t with
  | nil => simp [pieces]
  | cons c t ih =>
    obtain ⟨hc, ht⟩ := not_or.1 (List.mem_cons.not.1 h)
    have ha : at? (c :: t) = none := by
      show (if 0x24 = c then _ else none : Option Text).bind _ = none
      rw [if_neg hc]
      rfl
    rw [pieces]
    split
    · rename_i ha'
      rw [ha] at ha'
      cases ha'
    · rw [ih ht]
      cases t <;> rfl

theorem Resolver.reads_of_plain {res : Resolver} {t : Text} (h : 0x24 ∉ t) : res.Reads (.text t) := by
  refine ⟨t, rfl, fun ps p rest he => ?_⟩
  have hp : Placeholder.Piece.hole p ∈ Placeholder.pieces t := by simp [he]
  rw [Placeholder.pieces_of_plain h] at hp
  split at hp <;> simp at hp

theorem Resolver.resolve_of_plain {res : Resolver} {t : Text} (h : 0x24 ∉ t) : res.resolve (.text t) = .ok t := by
  show res.resolveText t = .ok t
  unfold resolveText
  rw [Placeholder.pieces_of_plain h]
  split
  · next ht =>
    rw [ht]
    rfl
  · exact congrArg Except.ok (List.append_nil t)

end PubSub

import PubSub.Proofs.Registry.Atomicity
/-!
# Values of a wrong kind

Beside its names and its route a declaration may have a condition, a dead letter topic and metadata. Whether a value
there counts as given is asked before its kind is. What is given and of a wrong kind refuses the declaration; what does
not count as given is left out, of whatever kind it is, so that a declaration with a wrong value may be taken over
(`mistyped_refused`, `mistyped_accepted`).
-/
namespace PubSub

namespace Value

/-- A text, or nothing. -/
def IsOptionalText : Value → Prop
  | .none | .text _ => True
  | _ => False

/-- A mapping, or nothing. -/
def IsOptionalMapping : Value → Prop
  | .none | .mapping _ | .view _ => True
  | _ => False

/-- The value if it counts as given, and nothing otherwise. -/
def ifGiven (v : Value) : Value := if v.IsGiven then v else .none

theorem isOptionalMapping_of_entries? {v : Value} {entries : List (Value × Value)} (h : v.entries? = some entries) :
    v.IsOptionalMapping := by
  cases v with
  | mapping | view => trivial
  | _ => cases h

/-- To leave out what is not given changes nothing where only what is given is looked at. -/
theorem ite_ifGiven {α : Type} (v : Value) (f : Value → α) (a : α) :
    (if v.ifGiven.IsGiven then f v.ifGiven else a) = if v.IsGiven then f v else a := by
  unfold ifGiven
  by_cases h : v.IsGiven
  · rw [if_pos h]
  · rw [if_neg h, if_neg h]
    exact if_neg id

theorem not_ifGiven_iff {P : Value → Prop} (hP : P .none) (v : Value) : ¬ P v.ifGiven ↔ v.IsGiven ∧ ¬ P v := by
  unfold ifGiven
  by_cases h : v.IsGiven
  · rw [if_pos h, and_iff_right h]
  · rw [if_neg h]
    exact ⟨fun hn => absurd hP hn, fun hg => absurd hg.1 h⟩

end Value

namespace Declaration

/-- Names that are not blank, and a route. -/
structure IsAddressed (d : Declaration) : Prop where
  pubsub : ∃ t, d.pubsub.IsName t
  topic : ∃ t, d.topic.IsName t
  route : ∃ t, d.route.IsText t

/-- Something stands in the place of a text or of a mapping and is of another kind. -/
def IsMistyped (d : Declaration) : Prop :=
  ¬ d.condition.IsOptionalText ∨ ¬ d.deadLetter.IsOptionalText ∨ ¬ d.metadata.IsOptionalMapping

/-- Something of a wrong kind stands there that counts as given. -/
def GivesMistyped (d : Declaration) : Prop :=
  (d.condition.IsGiven ∧ ¬ d.condition.IsOptionalText) ∨ (d.deadLetter.IsGiven ∧ ¬ d.deadLetter.IsOptionalText) ∨
    (d.metadata.IsGiven ∧ ¬ d.metadata.IsOptionalMapping)

/-- The declaration with nothing in the places of values that do not count as given. -/
def onlyGiven (d : Declaration) : Declaration :=
  { d with condition := d.condition.ifGiven, deadLetter := d.deadLetter.ifGiven, metadata := d.metadata.ifGiven }

theorem isMistyped_onlyGiven_iff {d : Declaration} : d.onlyGiven.IsMistyped ↔ d.GivesMistyped :=
  or_congr (Value.not_ifGiven_iff trivial _)
    (or_congr (Value.not_ifGiven_iff trivial _) (Value.not_ifGiven_iff trivial _))

/-- What comes to terms gives nothing of a wrong kind. -/
theorem Says.not_givesMistyped {d : Declaration} {t : Terms} (h : d.Says t) : ¬ d.GivesMistyped := by
  rintro (⟨hg, hn⟩ | ⟨hg, hn⟩ | ⟨hg, hn⟩)
  · have hd := h.delivery
    cases ht : t.delivery with
    | default path =>
      rw [ht] at hd
      exact hd.1 hg
    | rule r =>
      rw [ht] at hd
      exact hn (hd.2.2.1.1 ▸ trivial)
  · have hd := h.deadLetter
    cases ht : t.deadLetter? with
    | none =>
      rw [ht] at hd
      exact hd hg
    | some topic =>
      rw [ht] at hd
      exact hn (hd.2.1 ▸ trivial)
  · rcases h.metadata with ⟨hm, -⟩ | ⟨-, entries, he, -⟩
    · exact hm hg
    · exact hn (Value.isOptionalMapping_of_entries? he)

end Declaration

namespace Memory

theorem declareRoute_onlyGiven (place : Nat) (d : Declaration) :
    declareRoute place d.onlyGiven = declareRoute place d :=
  Value.ite_ifGiven d.condition
    (fun condition => check (RoutingRule.ofValues d.route condition d.priority) >>= declareRule place) _

theorem register_onlyGiven (d : Declaration) : register d.onlyGiven = register d := by
  have hd : ∀ place, declare place d.onlyGiven = declare place d := by
    intro place
    rw [declare_eq, declare_eq, declareRoute_onlyGiven]
    have hl := Value.ite_ifGiven d.deadLetter (setDeadLetter place) (pure ())
    have hm := Value.ite_ifGiven d.metadata (mergeMetadata place) (pure ())
    rw [← hl, ← hm]
    rfl
  unfold register
  simp only [hd]
  rfl

/-- After any run of calls, a declaration that gives something of a wrong kind is refused and leaves everything as it
was; if the integers that were handed over can be written out, what refuses it is an error of the declaration. Every
declaration comes to what it comes to without the values that do not count as given. So one that has something of a
wrong kind but gives nothing of a wrong kind comes to what one comes to that has nothing of a wrong kind. -/
theorem mistyped_refused (cs : List Call) (d : Declaration) :
    (d.GivesMistyped → ∃ x m', (register d).on (empty.callAll cs) = (.error x, m') ∧ (empty.callAll cs).IsKept m' ∧
      m'.view = (empty.callAll cs).view ∧ ((∀ i ∈ d.integers, ¬ Json.IsLong i) → ∃ c, x = .config c)) ∧
    register d = register d.onlyGiven ∧ (d.onlyGiven.IsMistyped ↔ d.GivesMistyped) := by
  refine ⟨fun hg => ?_, (register_onlyGiven d).symm, Declaration.isMistyped_onlyGiven_iff⟩
  have hr := represents_empty.callAll cs
  rcases hr.register d with ⟨key, r', m', h, -⟩ | ⟨c, m', h, hm, hk⟩
  · obtain ⟨t, ht, -⟩ := Registry.register_eq_ok_iff.1 h
    exact absurd hg ht.not_givesMistyped
  · refine ⟨.of c, m', hm, hk, ?_, fun hi => ⟨c, ?_⟩⟩
    · rw [(hr.of_isKept hk).view_eq, hr.view_eq]
    · have hw : c.IsWordable := fun i hc => hi i (Registry.integers_of_register h hc)
      rw [Refusal.of, if_pos hw]

/-- A declaration of a default path, with values in the other places that may be of any kind. -/
def carelessly (condition deadLetter metadata : Value) : Declaration :=
  { pubsub := .text (lit "pubsub"), topic := .text (lit "orders"), route := .text (lit "/orders"),
    condition, deadLetter, metadata }

theorem isAddressed_carelessly (condition deadLetter metadata : Value) :
    (carelessly condition deadLetter metadata).IsAddressed :=
  ⟨⟨_, ⟨rfl, by decide⟩, by decide⟩, ⟨_, ⟨rfl, by decide⟩, by decide⟩, ⟨_, rfl, by decide⟩⟩

/-- The declaration has something of a wrong kind, and yet it is accepted and its topic stored. -/
def Overlooks (m : Memory) (d : Declaration) : Prop :=
  d.IsAddressed ∧ d.IsMistyped ∧ ∃ key m', (register d).on m = (.ok key, m') ∧ m'.view.keys = m.view.keys ++ [key]

/-- Zero, an empty list and a falsehood pass for a condition, a dead letter topic and metadata that are left out. -/
theorem mistyped_accepted :
    empty.Overlooks (carelessly (.int 0) .none .none) ∧ empty.Overlooks (carelessly .none (.list []) .none) ∧
    empty.Overlooks (carelessly .none .none (.bool false)) :=
  ⟨⟨isAddressed_carelessly _ _ _, .inl id, _, _, rfl, rfl⟩,
    ⟨isAddressed_carelessly _ _ _, .inr (.inl id), _, _, rfl, rfl⟩,
    ⟨isAddressed_carelessly _ _ _, .inr (.inr id), _, _, rfl, rfl⟩⟩

end Memory

end PubSub

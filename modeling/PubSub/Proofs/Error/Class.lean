import PubSub.Error.Library
import PubSub.Handler.Discovery
import PubSub.Manifest.Document
import PubSub.Proofs.Lineage
/-!
# By which classes errors are caught

An error is caught by the class above its own, and so by all above that (`extends_trans`). Every error of a declaration
is caught as one (`extends_config`), and of the errors that stop discovery no others are, but those that an attribute
raises by itself. An error is made of what it is about, and can be made again of that (`make?_eq_some_iff`).
-/
namespace PubSub

namespace ErrorClass

variable {a b c : ErrorClass}

/-! ## Lineages -/

/-- What holds of a class if it holds of those that the class extends holds of all. -/
@[elab_as_elim]
theorem bases_induction {motive : ErrorClass → Prop} (step : ∀ c, (∀ a ∈ c.bases, motive a) → motive c)
    (c : ErrorClass) : motive c :=
  step c fun a _ => bases_induction step a
termination_by c.height
decreasing_by exact height_lt_of_mem_bases ‹_›

/-- The classes that a class extends do not contradict one another. -/
theorem isOk_merge_bases (c : ErrorClass) : (Lineage.merge (c.bases.map lineage ++ [c.bases])).isOk := by
  cases c <;> decide +kernel

theorem lineage_eq (c : ErrorClass) :
    ∃ above, Lineage.merge (c.bases.map lineage ++ [c.bases]) = .ok above ∧ c.lineage = c :: above := by
  have hok := c.isOk_merge_bases
  rw [lineage, List.attach_map_val]
  cases h : Lineage.merge (c.bases.map lineage ++ [c.bases]) with
  | ok above => exact ⟨above, rfl, rfl⟩
  | error _ =>
    rw [h] at hok
    cases hok

theorem extends_refl (c : ErrorClass) : c.Extends c := by
  obtain ⟨above, -, hl⟩ := c.lineage_eq
  rw [Extends, hl]
  exact .head _

theorem mem_above_iff {above : List ErrorClass} (h : Lineage.merge (c.bases.map lineage ++ [c.bases]) = .ok above) :
    b ∈ above ↔ ∃ a ∈ c.bases, a.Extends b := by
  rw [Lineage.mem_iff_of_merge h]
  constructor
  · rintro ⟨line, hline, hb⟩
    rcases List.mem_append.1 hline with hline | hline
    · obtain ⟨a, ha, rfl⟩ := List.mem_map.1 hline
      exact ⟨a, ha, hb⟩
    · obtain rfl := List.mem_singleton.1 hline
      exact ⟨b, hb, b.extends_refl⟩
  · rintro ⟨a, ha, hb⟩
    exact ⟨_, List.mem_append_left _ (List.mem_map_of_mem ha), hb⟩

/-- An error of a class is one of another if the classes are the same, or if it is one by what its class extends. -/
theorem extends_iff : c.Extends b ↔ b = c ∨ ∃ a ∈ c.bases, a.Extends b := by
  obtain ⟨above, hm, hl⟩ := c.lineage_eq
  rw [Extends, hl, List.mem_cons, mem_above_iff hm]

theorem extends_of_mem_bases (h : b ∈ c.bases) : c.Extends b := extends_iff.2 (.inr ⟨b, h, b.extends_refl⟩)

theorem extends_trans (hcb : c.Extends b) (hba : b.Extends a) : c.Extends a := by
  induction c using bases_induction with
  | step c ih =>
    rcases extends_iff.1 hcb with rfl | ⟨d, hd, hdb⟩
    · exact hba
    · exact extends_iff.2 (.inr ⟨d, hd, ih d hd hdb⟩)

theorem height_le_of_extends (h : c.Extends b) : b.height ≤ c.height := by
  induction c using bases_induction with
  | step c ih =>
    rcases extends_iff.1 h with rfl | ⟨d, hd, hdb⟩
    · exact Nat.le_refl _
    · exact Nat.le_trans (ih d hd hdb) (Nat.le_of_lt (height_lt_of_mem_bases hd))

/-- No class stands twice in a lineage. -/
theorem nodup_lineage (c : ErrorClass) : c.lineage.Nodup := by
  induction c using bases_induction with
  | step c ih =>
    obtain ⟨above, hm, hl⟩ := c.lineage_eq
    rw [hl, List.nodup_cons]
    constructor
    · intro hc
      obtain ⟨a, ha, hac⟩ := (mem_above_iff hm).1 hc
      exact Nat.not_le_of_lt (height_lt_of_mem_bases ha) (height_le_of_extends hac)
    · refine Lineage.nodup_of_merge (fun line hline => ?_) hm
      rcases List.mem_append.1 hline with hline | hline
      · obtain ⟨a, ha, rfl⟩ := List.mem_map.1 hline
        exact ih a ha
      · obtain rfl := List.mem_singleton.1 hline
        cases c <;> decide

end ErrorClass

/-! ## Errors of declarations -/

theorem Conflict.extends_conflict (c : Conflict) : c.errorClass.Extends .conflict := by
  cases c <;> exact ErrorClass.extends_of_mem_bases (.head _)

theorem ConfigError.extends_config (e : ConfigError) : e.errorClass.Extends .config := by
  cases e with
  | conflict key c => exact ErrorClass.extends_trans c.extends_conflict (ErrorClass.extends_of_mem_bases (.head _))
  | badName | badBound | unreadableMetadata | unresolved => exact ErrorClass.extends_of_mem_bases (.head _)
  | notText | notEncodable | badPriority | notMetadata | badMetadata | notBulkSettings =>
    exact ErrorClass.extends_refl _

/-- Resolving fails with an error of a declaration only where a strict resolver finds nothing. -/
theorem ResolveError.extends_config_iff {e : ResolveError} :
    e.errorClass.Extends .config ↔ ∃ c, e = .refused c := by
  cases e with
  | refused c => exact iff_of_true c.extends_config ⟨c, rfl⟩
  | notText | octets | unkeyable | notName | notTextAt =>
    have hn : ¬ ErrorClass.type.Extends .config := by decide +kernel
    exact iff_of_false hn (by rintro ⟨c, ⟨⟩⟩)
  | notEncodable =>
    have hn : ¬ ErrorClass.unicodeEncode.Extends .config := by decide +kernel
    exact iff_of_false hn (by rintro ⟨c, ⟨⟩⟩)

/-- Discovery raises a failure to resolve as it is. -/
theorem raised_ofResolveError (e : ResolveError) :
    (DiscoveryError.ofResolveError e).errorClass = e.errorClass ∧
    (DiscoveryError.ofResolveError e).message = e.message := by
  cases e <;> exact ⟨rfl, rfl⟩

/-- What stops discovery is caught as an error of a declaration if it is one, or if it was raised as one when an
attribute was computed. -/
theorem DiscoveryError.extends_config_iff {e : DiscoveryError} : e.errorClass.Extends .config ↔
    (∃ c, e = .refused c ∨ e = .unresolvable (.refused c)) ∨
      ∃ raised, e = .unreadable raised ∧ raised.errorClass.Extends .config := by
  cases e with
  | refused c => exact iff_of_true c.extends_config (.inl ⟨c, .inl rfl⟩)
  | unresolvable error =>
    refine ResolveError.extends_config_iff.trans ?_
    simp
  | lacks kind name =>
    have hn : ¬ ErrorClass.attribute.Extends .config := by decide +kernel
    exact iff_of_false hn (by simp)
  | unreadable raised => simp [DiscoveryError.errorClass]

/-! ## Making errors -/

namespace LibraryError

theorem mapM_value?_eq_some_iff {parts : List Ingredient} {vs : List Value} :
    parts.mapM Ingredient.value? = some vs ↔ parts = vs.map .value := by
  induction parts generalizing vs with
  | nil => cases vs <;> simp
  | cons part parts ih =>
    cases part <;> cases vs <;> simp [Ingredient.value?, Option.bind_eq_some_iff, ih, and_comm]

/-- An error is made of its ingredients, and of nothing else. -/
theorem make?_eq_some_iff {c : ErrorClass} {parts : List Ingredient} {e : LibraryError} :
    make? c parts = some e ↔ e.errorClass = c ∧ e.ingredients = parts := by
  constructor
  · intro h
    unfold make? at h
    split at h
    all_goals first
      | cases h
        exact ⟨rfl, rfl⟩
      | obtain ⟨vs, hvs, rfl⟩ := Option.map_eq_some_iff.1 h
        exact ⟨rfl, (mapM_value?_eq_some_iff.1 hvs).symm⟩
      | cases h
  · rintro ⟨rfl, rfl⟩
    cases e with
    | library | config | manifestDecode => exact Option.map_eq_some_iff.2 ⟨_, mapM_value?_eq_some_iff.2 rfl, rfl⟩
    | _ => rfl

/-- Where ingredients have names, there are as many names as ingredients. -/
theorem length_ingredients {e : LibraryError} {names : List Text} (h : e.errorClass.ingredients? = some names) :
    e.ingredients.length = names.length := by
  cases e <;> cases h <;> rfl

end LibraryError

namespace ConfigError

theorem errorClass_made (e : ConfigError) : e.made.errorClass = e.errorClass := by
  cases e with
  | conflict key c => cases c <;> rfl
  | _ => rfl

/-- A refusal says what the error says that it is made as. -/
theorem message_made (e : ConfigError) : e.made.message = e.message := by
  cases e with
  | conflict key c => cases c <;> rfl
  | _ => rfl

end ConfigError

end PubSub

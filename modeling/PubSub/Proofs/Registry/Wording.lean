import PubSub.Proofs.Registry.Serving
/-!
# Integers in messages

An integer of too many digits cannot be written out, so an error whose message would show one cannot be worded. The
errors of a declaration show no integers but those that were handed over with it, never one that was declared before
(`Registry.integers_of_register`).
-/
namespace PubSub

namespace Value

mutual

/-- The integers that a value shows when it is written out. -/
def integers : Value → List Int
  | .int i => [i]
  | .list items | .tuple items => itemIntegers items
  | .mapping entries | .view entries => entryIntegers entries
  | .settings enabled maxMessages? maxAwaitMs? =>
    integers enabled ++ (BulkSettings.mk enabled maxMessages? maxAwaitMs?).integers
  | .bulk b => b.integers
  | .entry e => e.integers
  | .none | .bool _ | .float _ | .text _ | .bytes _ | .rule _ | .routes _ => []

def itemIntegers : List Value → List Int
  | [] => []
  | v :: vs => integers v ++ itemIntegers vs

def entryIntegers : List (Value × Value) → List Int
  | [] => []
  | (k, v) :: es => integers k ++ integers v ++ entryIntegers es

end

theorem integers_entries {v : Value} {entries : List (Value × Value)} (h : v.entries? = some entries) :
    v.integers = entryIntegers entries := by
  cases v with
  | mapping es | view es =>
    cases h
    rfl
  | _ => cases h

theorem mem_entryIntegers {entries : List (Value × Value)} {p : Value × Value} (hp : p ∈ entries) :
    p.1.integers ++ p.2.integers ⊆ entryIntegers entries := by
  induction entries with
  | nil => cases hp
  | cons q entries ih =>
    rcases List.mem_cons.1 hp with rfl | hp
    · exact List.subset_append_left _ _
    · exact List.subset_append_of_subset_right _ (ih hp)

end Value

/-- The integers that a message may show. -/
def ConfigError.integers : ConfigError → List Int
  | .badName _ v | .notText _ v | .badPriority v | .notMetadata v | .notBulkSettings v => v.integers
  | .badBound _ v .notInteger => v.integers
  | .badBound _ v (.below least) => v.integers ++ [least]
  | .badMetadata _ name value => name.integers ++ value.integers
  | .conflict _ (.priority _ supplied) => [supplied.priority]
  | .conflict _ (.defaultRoute ..) | .conflict _ (.deadLetter ..) => []
  | .unreadableMetadata _ raw _ => raw.integers
  | .notEncodable .. | .unresolved _ => []

/-- The message can be put into words. -/
def ConfigError.IsWordable (c : ConfigError) : Prop := ∀ i ∈ c.integers, ¬ Json.IsLong i

instance (c : ConfigError) : Decidable c.IsWordable := inferInstanceAs (Decidable (∀ i ∈ _, _))

/-- The integers that are handed over with a declaration. -/
def Declaration.integers (d : Declaration) : List Int :=
  d.pubsub.integers ++ d.topic.integers ++ d.route.integers ++ d.condition.integers ++ d.priority.integers
    ++ d.deadLetter.integers ++ d.metadata.integers ++ d.bulk.integers

/-- What refuses a computation shows no other integers than these. -/
def ShowsOnly {α : Type} (is : List Int) (x : Except ConfigError α) : Prop := FailsOnly (fun c => c.integers ⊆ is) x

namespace ShowsOnly

variable {α β : Type} {is js : List Int}

theorem ok (a : α) : ShowsOnly is (.ok a) := failsOnly_ok a

theorem error {c : ConfigError} (h : c.integers ⊆ is) : ShowsOnly is (.error c : Except ConfigError α) :=
  failsOnly_error.2 h

theorem mono {x : Except ConfigError α} (h : ShowsOnly is x) (hs : is ⊆ js) : ShowsOnly js x :=
  FailsOnly.mono h fun _ hc _ hi => hs (hc hi)

theorem bind {x : Except ConfigError α} {f : α → Except ConfigError β} (hx : ShowsOnly is x)
    (hf : ∀ a, x = .ok a → ShowsOnly is (f a)) : ShowsOnly is (x >>= f) :=
  failsOnly_bind.2 ⟨hx, hf⟩

end ShowsOnly

/-! ## Checks -/

theorem showsOnly_requireText (field : Text) (v : Value) : ShowsOnly v.integers (requireText field v) := by
  cases v with
  | text t =>
    simp only [requireText]
    split
    · exact .ok t
    · exact .error (List.nil_subset _)
  | _ => exact .error (List.Subset.refl _)

theorem showsOnly_requireName (field : Text) (v : Value) : ShowsOnly v.integers (requireName field v) := by
  cases v with
  | text t =>
    simp only [requireName]
    split
    · exact .error (List.Subset.refl _)
    · exact showsOnly_requireText field (.text t)
  | _ => exact .error (List.Subset.refl _)

theorem showsOnly_topicKey (pubsub topic : Value) :
    ShowsOnly (pubsub.integers ++ topic.integers) (TopicKey.ofValues pubsub topic) := by
  refine .bind ((showsOnly_requireName _ pubsub).mono (List.subset_append_left _ _)) fun p _ => ?_
  refine .bind ((showsOnly_requireName _ topic).mono (List.subset_append_right _ _)) fun t _ => ?_
  exact .ok _

theorem showsOnly_rule (path condition priority : Value) :
    ShowsOnly (path.integers ++ condition.integers ++ priority.integers)
      (RoutingRule.ofValues path condition priority) := by
  refine .bind ((showsOnly_requireText _ path).mono (by simp)) fun p _ => ?_
  refine .bind ((showsOnly_requireText _ condition).mono (by simp)) fun t _ => ?_
  cases priority with
  | int i => exact .ok _
  | _ => exact .error (by simp [ConfigError.integers])

/-! ## Parts of a declaration -/

namespace Subscription

variable (s : Subscription)

theorem showsOnly_declareRule (r : RoutingRule) : ShowsOnly [r.priority] (s.declareRule r) := by
  unfold declareRule addRule
  split
  · exact .ok s
  · cases s.ruleAt? r.priority with
    | some existing => exact .error (List.Subset.refl _)
    | none => exact .ok _

theorem showsOnly_give (x : Setting) (v : Value) : ShowsOnly v.integers (s.give x v) := by
  refine .bind (showsOnly_requireText _ v) fun t _ => ?_
  cases s.setting? x with
  | none => exact .ok _
  | some current =>
    show ShowsOnly _ (if _ then _ else _)
    split
    · exact .ok s
    · cases x <;> exact .error (List.nil_subset _)

theorem showsOnly_checkPair (key : TopicKey) (p : Value × Value) :
    ShowsOnly (p.1.integers ++ p.2.integers) (checkPair key p) := by
  obtain ⟨name, value⟩ := p
  unfold checkPair
  split
  · refine .bind ((showsOnly_requireText _ _).mono (List.nil_subset _)) fun n _ => ?_
    refine .bind ((showsOnly_requireText _ _).mono (List.nil_subset _)) fun v _ => ?_
    exact .ok _
  · rename_i hp
    cases hp
    exact .error (List.Subset.refl _)

theorem showsOnly_mergeMetadata (metadata : Value) : ShowsOnly metadata.integers (s.mergeMetadata metadata) := by
  unfold mergeMetadata
  cases he : metadata.entries? with
  | none => exact .error (List.Subset.refl _)
  | some entries =>
    refine .bind (failsOnly_mapM.2 fun ps p rest hp _ => ?_) fun pairs _ => .ok _
    refine (showsOnly_checkPair s.key p).mono ?_
    rw [Value.integers_entries he]
    exact Value.mem_entryIntegers (by simp [hp])

theorem showsOnly_setBulk (settings : Value) : ShowsOnly settings.integers (s.setBulk settings) := by
  unfold setBulk
  cases BulkSettings.ofValue? settings with
  | none => exact .error (List.Subset.refl _)
  | some b => exact .ok _

theorem showsOnly_declareRoute (d : Declaration) : ShowsOnly d.integers (s.declareRoute d) := by
  unfold declareRoute
  split
  · refine .bind ((showsOnly_rule _ _ _).mono ?_) fun r hr => (s.showsOnly_declareRule r).mono ?_
    · intro i hi
      simp only [List.mem_append] at hi
      rcases hi with (hi | hi) | hi <;> simp [Declaration.integers, hi]
    · obtain ⟨-, -, hp⟩ := RoutingRule.ofValues_eq_ok_iff.1 hr
      simp [Declaration.integers, hp, Value.integers]
  · exact (s.showsOnly_give .defaultPath d.route).mono fun i hi => by simp [Declaration.integers, hi]

theorem showsOnly_declare (d : Declaration) : ShowsOnly d.integers (s.declare d) := by
  rw [declare_eq]
  refine .bind (s.showsOnly_declareRoute d) fun s _ => ?_
  refine .bind ?_ fun s _ => .bind ?_ fun s _ => ?_
  · split
    · exact (s.showsOnly_give .deadLetter _).mono fun i hi => by simp [Declaration.integers, hi]
    · exact .ok s
  · split
    · exact (s.showsOnly_mergeMetadata _).mono fun i hi => by simp [Declaration.integers, hi]
    · exact .ok s
  · split
    · exact .ok s
    · exact (s.showsOnly_setBulk _).mono fun i hi => by simp [Declaration.integers, hi]

end Subscription

/-- Whatever refuses a declaration, its message shows no other integers than those of the declaration. -/
theorem Registry.integers_of_register {r : Registry} {d : Declaration} {c : ConfigError} (h : r.register d = .error c) :
    c.integers ⊆ d.integers := by
  have hs : ShowsOnly d.integers (r.register d) := by
    refine .bind ((showsOnly_topicKey _ _).mono ?_) fun key _ => ?_
    · intro i hi
      rcases List.mem_append.1 hi with hi | hi <;> simp [Declaration.integers, hi]
    · exact .bind (Subscription.showsOnly_declare _ d) fun s _ => .ok _
  exact hs c h

end PubSub

import PubSub.Handler.Discovery
import PubSub.Proofs.Placeholder.Resolution
import PubSub.Proofs.Registry.Wording
/-!
# What stops discovery

A declaration that is no good is refused with an error of the declaration. Its placeholders are resolved before
anything is checked, though, and there what is no text, and a name that no variable can have, is not refused but fails,
and so does what stands in the place of a rule and is none. So discovery is stopped by nothing but errors of
declarations exactly if each mark that it gets to can be read (`discover_refused_iff`).
-/
namespace PubSub

/-! ## What a mark hands over -/

/-- The integers that are handed over with a rule. -/
def MarkRule.integers : MarkRule → List Int
  | .rule condition priority => condition.integers ++ priority.integers
  | .other _ => []

/-- The integers that are handed over with a mark. -/
def TopicMark.integers (t : TopicMark) : List Int := t.route.integers ++ t.rule.integers ++ t.metadata.integers

/-- The integers that are handed over with what is visited. -/
def Visit.integers : Visit → List Int
  | .mark _ (.topic t) bulk? => t.integers ++ bulk?.toList.flatMap fun b => b.toValue.integers
  | .mark _ (.stray _) _ | .failing _ => []

theorem integers_texts (metadata : List (Text × Text)) :
    (Value.mapping (metadata.map fun (name, value) => (.text name, .text value))).integers = [] := by
  induction metadata with
  | nil => rfl
  | cons p metadata ih => exact ih

/-- A rule has the integers that were handed over with it, and a route without a rule the priority zero. -/
theorem MarkRule.integers_parts {m : MarkRule} {parts : Value × Value} (h : m.parts = .ok parts) {i : Int}
    (hi : i ∈ parts.1.integers ∨ i ∈ parts.2.integers) : i ∈ m.integers ∨ i = 0 := by
  cases m with
  | rule condition priority =>
    cases h
    exact .inl (List.mem_append.2 hi)
  | other v =>
    rw [MarkRule.parts] at h
    split at h
    · cases h
    · cases h
      exact .inr (hi.elim (fun h => nomatch h) List.mem_singleton.1)

section Declared
variable {res : Resolver} {t : TopicMark} {bulk? : Option BulkSettings}

/-- What a mark declares has only the integers that were handed over, and the priority of a route without a rule. -/
theorem integers_declaration {topic pubsub : Text} {deadLetter? : Option Text} {rule : Value × Value}
    (hrule : t.rule.parts = .ok rule) {metadata : List (Text × Text)} {i : Int}
    (hi : i ∈ (t.declaration topic pubsub deadLetter? rule metadata bulk?).integers) :
    i ∈ t.integers ++ bulk?.toList.flatMap (fun b => b.toValue.integers) ∨ i = 0 := by
  have hd : (Value.ofOption Value.text deadLetter?).integers = [] := by cases deadLetter? <;> rfl
  have hb : (Value.ofOption BulkSettings.toValue bulk?).integers =
      bulk?.toList.flatMap fun b => b.toValue.integers := by
    cases bulk? with
    | none => rfl
    | some b => exact (List.append_nil _).symm
  have hr : ∀ i ∈ (if t.route.IsGiven then t.route else .text topic : Value).integers, i ∈ t.route.integers := by
    intro i hi
    split at hi
    · exact hi
    · cases hi
  simp only [Declaration.integers, TopicMark.declaration, integers_texts, hd, hb, List.mem_append] at hi
  simp only [TopicMark.integers, List.mem_append]
  have := hr i
  have := MarkRule.integers_parts hrule (i := i)
  tauto

theorem complete_eq_ok_iff {handler topic pubsub : Text} {d : Declaration} :
    t.complete res handler bulk? topic pubsub = .ok d ↔ ∃ deadLetter?, t.resolveDeadLetter res = .ok deadLetter? ∧
      ∃ rule, t.rule.parts = .ok rule ∧ ∃ metadata, Handler.readMetadata handler t.metadata = .ok metadata ∧
        d = t.declaration topic pubsub deadLetter? rule metadata bulk? := by
  simp only [TopicMark.complete, bind_eq_ok_iff, mapError_eq_ok_iff, pure_eq_ok_iff]

theorem exists_declaration {handler : Text} {d : Declaration} (h : t.declaration? res handler bulk? = .ok (some d)) :
    ∃ topic pubsub deadLetter? rule metadata, t.rule.parts = .ok rule ∧
      d = t.declaration topic pubsub deadLetter? rule metadata bulk? := by
  obtain ⟨topic, -, h⟩ := bind_eq_ok_iff.1 h
  obtain ⟨pubsub, -, h⟩ := bind_eq_ok_iff.1 h
  split at h
  · cases h
  · obtain ⟨d', hd, ⟨⟩⟩ := map_eq_ok_iff.1 h
    obtain ⟨deadLetter?, -, rule, hr, metadata, -, hd⟩ := complete_eq_ok_iff.1 hd
    exact ⟨topic, pubsub, deadLetter?, rule, metadata, hr, hd⟩

end Declared

/-! ## One mark -/

/-- A rule, or nothing that counts as given in its place. -/
def MarkRule.IsReadable : MarkRule → Prop
  | .rule .. => True
  | .other v => ¬ v.IsGiven

/-- What a mark has resolved can be read: its topic and then its component, and if neither resolves to the empty text,
the dead letter topic that it may give and then its rule. -/
def TopicMark.IsReadable (t : TopicMark) (res : Resolver) : Prop :=
  res.Reads t.topic ∧ ∀ topic, res.resolve t.topic = .ok topic →
    res.Reads t.pubsub ∧ ∀ pubsub, res.resolve t.pubsub = .ok pubsub → topic ≠ [] → pubsub ≠ [] →
      (t.deadLetter.IsGiven → res.Reads t.deadLetter) ∧
      ((t.deadLetter.IsGiven → ∃ text, res.resolve t.deadLetter = .ok text) → t.rule.IsReadable)

/-- Errors of a kind that are errors of declarations. Those that show only some integers are of that kind. -/
structure DiscoveryError.IsRefusal (P : DiscoveryError → Prop) (is : List Int) : Prop where
  shown : ∀ c : ConfigError, (∀ i ∈ c.integers, i ∈ is ∨ i = 0) → P (.refused c)
  refused : ∀ e, P e → ∃ c, e = .refused c

section Marks
variable {P : DiscoveryError → Prop} {res : Resolver} {t : TopicMark} {handler : Text} {bulk? : Option BulkSettings}

theorem DiscoveryError.IsRefusal.ofResolveError {is : List Int} (hP : IsRefusal P is) :
    Resolver.IsRefusal fun e => P (ofResolveError e) where
  unresolved source := hP.shown _ nofun
  refused e he := by
    cases e with
    | refused c => exact ⟨c, rfl⟩
    | _ => exact nomatch hP.refused _ he

/-- What is no rule is not refused, but has no condition or no priority. -/
theorem failsOnly_parts {is : List Int} (hP : DiscoveryError.IsRefusal P is) {m : MarkRule} :
    FailsOnly P m.parts ↔ m.IsReadable := by
  cases m with
  | rule condition priority => exact iff_of_true (failsOnly_ok _) trivial
  | other v =>
    rw [MarkRule.parts, MarkRule.IsReadable]
    split
    · next hg =>
      refine iff_of_false (fun h => ?_) (not_not_intro hg)
      obtain ⟨c, hc⟩ := hP.refused _ (failsOnly_error.1 h)
      cases hc
    · next hg => exact iff_of_true (failsOnly_ok _) hg

theorem resolveDeadLetter_isOk_iff : (∃ deadLetter?, t.resolveDeadLetter res = .ok deadLetter?) ↔
    (t.deadLetter.IsGiven → ∃ text, res.resolve t.deadLetter = .ok text) := by
  unfold TopicMark.resolveDeadLetter
  split
  · next hg =>
    simp only [mapError_eq_ok_iff, map_eq_ok_iff, imp_iff_right hg]
    exact ⟨fun ⟨_, text, h, _⟩ => ⟨text, h⟩, fun ⟨text, h⟩ => ⟨_, text, h, rfl⟩⟩
  · next hg => exact iff_of_true ⟨none, rfl⟩ fun h => absurd h hg

theorem failsOnly_complete (hres : res.IsTextual) (hP : DiscoveryError.IsRefusal P t.integers) {topic pubsub : Text} :
    FailsOnly P (t.complete res handler bulk? topic pubsub) ↔ (t.deadLetter.IsGiven → res.Reads t.deadLetter) ∧
      ((t.deadLetter.IsGiven → ∃ text, res.resolve t.deadLetter = .ok text) → t.rule.IsReadable) := by
  have hd : FailsOnly P (t.resolveDeadLetter res) ↔ (t.deadLetter.IsGiven → res.Reads t.deadLetter) := by
    unfold TopicMark.resolveDeadLetter
    split
    · next hg =>
      rw [failsOnly_mapError, failsOnly_map, Resolver.failsOnly_resolve hP.ofResolveError hres, imp_iff_right hg]
    · next hg => exact iff_of_true (failsOnly_ok _) fun h => absurd h hg
  -- Of what comes last, the metadata, everything that is wrong is refused.
  have hm : FailsOnly P ((Handler.readMetadata handler t.metadata).mapError .refused) :=
    failsOnly_mapError.2 <| failsOnly_mapError.2 fun problem _ =>
      hP.shown _ fun i hi => .inl (List.mem_append_right _ hi)
  unfold TopicMark.complete
  rw [failsOnly_bind, hd, ← resolveDeadLetter_isOk_iff, ← failsOnly_parts hP]
  refine and_congr_right fun _ => ⟨?_, ?_⟩
  · rintro h ⟨deadLetter?, hr⟩
    exact (failsOnly_bind.1 (h deadLetter? hr)).1
  · intro h d? hr
    exact failsOnly_bind.2 ⟨h ⟨d?, hr⟩, fun rule _ => failsOnly_bind.2 ⟨hm, fun metadata _ => failsOnly_ok _⟩⟩

theorem failsOnly_declaration (hres : res.IsTextual) (hP : DiscoveryError.IsRefusal P t.integers) :
    FailsOnly P (t.declaration? res handler bulk?) ↔ t.IsReadable res := by
  have hr : ∀ v, FailsOnly P ((res.resolve v).mapError .ofResolveError) ↔ res.Reads v := fun v =>
    failsOnly_mapError.trans (Resolver.failsOnly_resolve hP.ofResolveError hres)
  unfold TopicMark.declaration? TopicMark.IsReadable
  rw [failsOnly_bind, hr]
  refine and_congr_right fun _ => forall_congr' fun topic => ?_
  rw [mapError_eq_ok_iff, failsOnly_bind, hr]
  refine imp_congr_right fun _ => and_congr_right fun _ => forall_congr' fun pubsub => ?_
  rw [mapError_eq_ok_iff]
  refine imp_congr_right fun _ => ?_
  split
  · next hempty => exact iff_of_true (failsOnly_ok none) fun ht hp => (hempty.elim ht hp).elim
  · next hempty =>
    obtain ⟨ht, hp⟩ := not_or.1 hempty
    rw [failsOnly_map, failsOnly_complete hres hP, imp_iff_right ht, imp_iff_right hp]

theorem failsOnly_visit (hres : res.IsTextual) {r : Registry}
    (hP : DiscoveryError.IsRefusal P (Visit.mark handler (.topic t) bulk?).integers) :
    FailsOnly P (r.visit res (.mark handler (.topic t) bulk?)) ↔ t.IsReadable res := by
  have hP' : DiscoveryError.IsRefusal P t.integers :=
    ⟨fun c hc => hP.shown c fun i hi => (hc i hi).imp_left (List.mem_append_left _), hP.refused⟩
  unfold Registry.visit
  rw [failsOnly_bind, failsOnly_declaration hres hP', and_iff_left]
  intro d? hd
  cases d? with
  | none => exact failsOnly_ok _
  | some d =>
    refine failsOnly_bind.2 ⟨failsOnly_mapError.2 fun c hc => hP.shown c fun i hi => ?_, fun _ _ => failsOnly_ok _⟩
    obtain ⟨topic, pubsub, deadLetter?, rule, metadata, hrule, rfl⟩ := exists_declaration hd
    exact integers_declaration hrule (Registry.integers_of_register hc hi)

end Marks

/-! ## All visits -/

namespace Registry

section Visits
variable {res : Resolver} {r r' : Registry} {v : Visit}

theorem visitAll_cons_error {e : DiscoveryError} (h : r.visit res v = .error e) (vs : List Visit) :
    r.visitAll res (v :: vs) = (.error e, r) := by
  simp only [visitAll, h]

theorem visitAll_cons_ok {key? : Option TopicKey} (h : r.visit res v = .ok (key?, r')) (vs : List Visit) :
    r.visitAll res (v :: vs) = ((r'.visitAll res vs).1.map (key?.toList ++ ·), (r'.visitAll res vs).2) := by
  simp only [visitAll, h]

/-- What stops the visits stops one of them, all before which go well. -/
theorem failsOnly_visitAll {P : DiscoveryError → Prop} {vs : List Visit} :
    FailsOnly P (r.visitAll res vs).1 ↔ ∀ before v after, vs = before ++ v :: after →
      (∃ keys, (r.visitAll res before).1 = .ok keys) → FailsOnly P ((r.visitAll res before).2.visit res v) := by
  induction vs generalizing r with
  | nil =>
    refine iff_of_true (failsOnly_ok _) fun before v after h => ?_
    simp at h
  | cons w vs ih =>
    cases hw : r.visit res w with
    | error e =>
      rw [visitAll_cons_error hw]
      constructor
      · rintro h (_ | ⟨w', before⟩) v after he ⟨keys, hk⟩
        · obtain ⟨rfl, rfl⟩ := List.cons.inj he
          show FailsOnly P (r.visit res w)
          rw [hw]
          exact failsOnly_error.2 (failsOnly_error.1 h)
        · obtain ⟨rfl, rfl⟩ := List.cons.inj he
          rw [visitAll_cons_error hw] at hk
          cases hk
      · intro h
        have hv : FailsOnly P (r.visit res w) := h [] w vs rfl ⟨[], rfl⟩
        rw [hw] at hv
        exact failsOnly_error.2 (failsOnly_error.1 hv)
    | ok p =>
      obtain ⟨key?, r₁⟩ := p
      rw [visitAll_cons_ok hw, failsOnly_map, ih]
      constructor
      · rintro h (_ | ⟨w', before⟩) v after he ⟨keys, hk⟩
        · obtain ⟨rfl, rfl⟩ := List.cons.inj he
          show FailsOnly P (r.visit res w)
          rw [hw]
          exact failsOnly_ok _
        · obtain ⟨rfl, rfl⟩ := List.cons.inj he
          rw [visitAll_cons_ok hw] at hk ⊢
          obtain ⟨keys', hk, -⟩ := map_eq_ok_iff.1 hk
          exact h before v after rfl ⟨keys', hk⟩
      · rintro h before v after rfl ⟨keys, hk⟩
        have hb := h (w :: before) v after rfl
        rw [visitAll_cons_ok hw] at hb
        exact hb ⟨_, map_eq_ok_iff.2 ⟨keys, hk, rfl⟩⟩

end Visits

end Registry

/-! ## Discovery -/

/-- What is visited is a topic that a handler is declared for. -/
def Visit.IsDeclared (v : Visit) : Prop := ∃ handler t bulk?, v = .mark handler (.topic t) bulk?

/-- An error of a declaration, which can be put into words if the integers that some visits hand over can. -/
def DiscoveryError.Refuses (vs : List Visit) (e : DiscoveryError) : Prop :=
  ∃ c, e = .refused c ∧ ((∀ v ∈ vs, ∀ i ∈ v.integers, ¬ Json.IsLong i) → c.IsWordable)

theorem isRefusal_refuses {vs : List Visit} {v : Visit} (hv : v ∈ vs) :
    DiscoveryError.IsRefusal (DiscoveryError.Refuses vs) v.integers where
  shown c hc := by
    refine ⟨c, rfl, fun h i hi => ?_⟩
    rcases hc i hi with hi | rfl
    · exact h v hv i hi
    · exact Json.not_isLong (k := 1) (by decide) (by decide)
  refused _ h := by
    obtain ⟨c, he, -⟩ := h
    exact ⟨c, he⟩

/-- Where handlers are declared for topics and nothing else, and a resolver gives texts, discovery is stopped by nothing
but errors of declarations exactly if each mark that it gets to can be read. The message of such an error can be put
into words if the integers that were handed over with the marks can. -/
theorem discover_refused_iff {res : Resolver} (hres : res.IsTextual) {o : Owner} (ho : ∀ v ∈ o.visits, v.IsDeclared)
    (r : Registry) :
    (∀ e, (r.discover res o).1 = .error e →
      ∃ c, e = .refused c ∧ ((∀ v ∈ o.visits, ∀ i ∈ v.integers, ¬ Json.IsLong i) → c.IsWordable)) ↔
    ∀ before handler t bulk? after, o.visits = before ++ .mark handler (.topic t) bulk? :: after →
      (∃ keys, (r.visitAll res before).1 = .ok keys) → t.IsReadable res := by
  show FailsOnly (DiscoveryError.Refuses o.visits) (r.visitAll res o.visits).1 ↔ _
  rw [Registry.failsOnly_visitAll]
  constructor
  · intro h before handler t bulk? after he hb
    exact (failsOnly_visit hres (isRefusal_refuses (by simp [he]))).1 (h before _ after he hb)
  · intro h before v after he hb
    have hv : v ∈ o.visits := by simp [he]
    obtain ⟨handler, t, bulk?, rfl⟩ := ho v hv
    exact (failsOnly_visit hres (isRefusal_refuses hv)).2 (h before handler t bulk? after he hb)

/-- An owner with one handler, which is declared for one topic. -/
def ownerOf (t : TopicMark) : Owner where
  name := lit "Handlers"
  isInstance := false
  own := []
  inherited := [[(lit "on_event", .handler ⟨[.topic t], none⟩)]]

theorem visits_ownerOf (t : TopicMark) : (ownerOf t).visits = [.mark (lit "Handlers.on_event") (.topic t) none] := by
  have hk : ((((ownerOf t).own :: (ownerOf t).inherited).flatMap Assoc.keys).eraseDups.filter fun name =>
      Owner.IsVisible name) = [lit "on_event"] := rfl
  have hn : (ownerOf t).names = [lit "on_event"] := by rw [Owner.names, hk, List.mergeSort_singleton]
  rw [Owner.visits, hn]
  rfl

/-- A topic whose name is a number. -/
def numberedMark : TopicMark := { topic := .int 5, pubsub := .text (lit "pubsub") }

/-- Its declaration is no good, and yet that is not what stops discovery. -/
theorem numbered_not_refused : (∀ v ∈ (ownerOf numberedMark).visits, v.IsDeclared) ∧ ({} : Resolver).IsTextual ∧
    ∃ e, (Registry.empty.discover {} (ownerOf numberedMark)).1 = .error e ∧ ¬ ∃ c, e = .refused c := by
  refine ⟨?_, nofun, .unresolvable (.notText (lit "int")), ?_, nofun⟩
  · simp [visits_ownerOf, Visit.IsDeclared]
  · rw [Registry.discover, visits_ownerOf]
    rfl

/-- A topic with a priority that is no number. -/
def unrankedMark : TopicMark :=
  { topic := .text (lit "orders"), pubsub := .text (lit "pubsub"), rule := .rule (.text (lit "size > 9")) .none }

/-- Discovery is stopped by its declaration, and by nothing else. -/
theorem discover_refused_iff_unranked : ({} : Resolver).IsTextual ∧
    (∀ v ∈ (ownerOf unrankedMark).visits, v.IsDeclared) ∧
    (∃ e, (Registry.empty.discover {} (ownerOf unrankedMark)).1 = .error e) ∧
    ∀ e, (Registry.empty.discover {} (ownerOf unrankedMark)).1 = .error e → ∃ c, e = .refused c ∧
      ((∀ v ∈ (ownerOf unrankedMark).visits, ∀ i ∈ v.integers, ¬ Json.IsLong i) → c.IsWordable) := by
  have hres : ({} : Resolver).IsTextual := nofun
  have ho : ∀ v ∈ (ownerOf unrankedMark).visits, v.IsDeclared := by simp [visits_ownerOf, Visit.IsDeclared]
  have ht : 0x24 ∉ lit "orders" := by decide
  have hp : 0x24 ∉ lit "pubsub" := by decide
  have hd : unrankedMark.declaration? {} (lit "Handlers.on_event") none =
      .ok (some (unrankedMark.declaration (lit "orders") (lit "pubsub") none (.text (lit "size > 9"), .none) []
        none)) := by
    unfold TopicMark.declaration? unrankedMark
    simp only [Resolver.resolve_of_plain ht, Resolver.resolve_of_plain hp]
    rfl
  refine ⟨hres, ho, ⟨.refused (.badPriority .none), ?_⟩, (discover_refused_iff hres ho Registry.empty).2 ?_⟩
  · rw [Registry.discover, visits_ownerOf]
    simp only [Registry.visitAll, Registry.visit, hd]
    rfl
  · rintro (_ | ⟨v, before⟩) handler t bulk? after he -
    · rw [visits_ownerOf] at he
      cases he
      refine ⟨Resolver.reads_of_plain ht, fun _ _ => ⟨Resolver.reads_of_plain hp, fun _ _ _ _ => ⟨nofun, ?_⟩⟩⟩
      exact fun _ => trivial
    · rw [visits_ownerOf] at he
      simp at he

end PubSub

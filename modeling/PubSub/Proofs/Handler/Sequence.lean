import PubSub.Proofs.Accumulation
import PubSub.Proofs.Assoc
import PubSub.Proofs.Handler.Metadata
import PubSub.Proofs.Text.Order
/-!
# Discovery as one sequence of declarations

What an owner's handlers were annotated with, taken together in the order of their names and of their stacks, is one
list of announcements. Discovery is one pass over that list: what has no name is passed over, each other announcement
is one declaration, and the first failure ends it with all before it declared (`discover_in_sequence`).
-/
namespace PubSub

/-! ## Stacks -/

namespace Handler

/-- The topics of a stack, the topmost first. -/
def topics (stack : List Annotation) : List TopicMark :=
  stack.filterMap fun
    | .topic t => some t
    | .bulk .. => none

/-- The bound that a value is. -/
def boundOf? (least : Int) : Value → Option (AtLeast least)
  | .int i => if h : least ≤ i then some ⟨i, h⟩ else none
  | _ => none

/-- The topmost bulk settings of a stack. -/
def settings? (stack : List Annotation) : Option BulkSettings :=
  stack.findSome? fun
    | .topic _ => none
    | .bulk maxMessages maxAwaitMs => some ⟨.bool true, boundOf? 1 maxMessages, boundOf? 0 maxAwaitMs⟩

theorem eq_boundOf?_of_requireBound {field : Text} {least : Int} {v : Value} {bound? : Option (AtLeast least)}
    (h : requireBound field least v = .ok bound?) : bound? = boundOf? least v := by
  cases v with
  | none =>
    cases h
    rfl
  | int i =>
    rw [requireBound] at h
    rw [boundOf?]
    split at h
    · next hi =>
      cases h
      rw [dif_pos hi]
    · cases h
  | _ => cases h

theorem eq_of_ofValues {enabled maxMessages maxAwaitMs : Value} {b : BulkSettings}
    (h : BulkSettings.ofValues enabled maxMessages maxAwaitMs = .ok b) :
    b = ⟨enabled, boundOf? 1 maxMessages, boundOf? 0 maxAwaitMs⟩ := by
  obtain ⟨m, hm, h⟩ := bind_eq_ok_iff.1 h
  obtain ⟨w, hw, h⟩ := bind_eq_ok_iff.1 h
  rw [pure_eq_ok_iff.1 h, eq_boundOf?_of_requireBound hm, eq_boundOf?_of_requireBound hw]

/-- However topics and bulk settings alternate in a stack, the handler has the topics in their order and the topmost
settings. -/
theorem eq_of_ofStack {stack : List Annotation} {h : Handler} (hs : ofStack stack = .ok h) :
    h = ⟨(topics stack).map .topic, settings? stack⟩ := by
  induction stack generalizing h with
  | nil =>
    cases hs
    rfl
  | cons a below ih =>
    obtain ⟨h', hb, ha⟩ := bind_eq_ok_iff.1 hs
    obtain rfl := ih hb
    cases a with
    | topic t =>
      cases ha
      rfl
    | bulk maxMessages maxAwaitMs =>
      obtain ⟨b, hb, ha⟩ := bind_eq_ok_iff.1 ha
      rw [pure_eq_ok_iff.1 ha, eq_of_ofValues hb]
      rfl

end Handler

/-! ## Attributes -/

/-- Where an attribute is found: with an instance itself, or with a class when that is looked at, or an instance of
it. -/
inductive Place
  | own
  | onClass
  | onInstance
  deriving DecidableEq

namespace Attribute

/-- What is seen of an attribute. A handler is seen everywhere, one in a wrapper not where the wrapper itself stands,
and one that is computed only on an instance. -/
inductive Shows : Place → Attribute → Option Handler → Prop
  | handler (p : Place) (h : Handler) : Shows p (.handler h) (some h)
  | wrapped {p : Place} (hp : p ≠ .own) (h : Handler) : Shows p (.wrapped h) (some h)
  | wrapper (h : Handler) : Shows .own (.wrapped h) none
  | computed (h : Handler) : Shows .onInstance (.computed h) (some h)
  | notComputed {p : Place} (hp : p ≠ .onInstance) (h : Handler) : Shows p (.computed h) none
  | absent {error : Raised} (h : error.errorClass.Extends .attribute) : Shows .onInstance (.failing error) none
  | notRaised {p : Place} (hp : p ≠ .onInstance) (error : Raised) : Shows p (.failing error) none
  | plain (p : Place) : Shows p .plain none

variable {a : Attribute} {seen : Option Handler}

/-- The attribute is computed when it is read, whatever comes of it. -/
inductive Computes : Attribute → Prop
  | computed (h : Handler) : Computes (.computed h)
  | failing (error : Raised) : Computes (.failing error)

theorem isComputed_iff : a.IsComputed = true ↔ a.Computes := by
  constructor
  · intro h
    cases a with
    | computed h' => exact .computed h'
    | failing error => exact .failing error
    | _ => cases h
  · rintro (_ | _) <;> rfl

theorem bare_of_shows (h : a.Shows .own seen) : a.bare = seen := by
  cases h with
  | wrapped hp => exact absurd rfl hp
  | _ => rfl

theorem onClass_of_shows (h : a.Shows .onClass seen) : a.onClass = seen := by
  cases h <;> rfl

theorem onInstance_of_shows (h : a.Shows .onInstance seen) : a.onInstance = .ok seen := by
  cases h with
  | absent he => exact if_pos he
  | notComputed hp | notRaised hp => exact absurd rfl hp
  | _ => rfl

end Attribute

/-! ## Names of an owner -/

namespace Owner

/-- The attribute of a name in the nearest class that has one. -/
def Inherits (o : Owner) (name : Text) (a : Attribute) : Prop :=
  ∃ nearer level further, o.inherited = nearer ++ level :: further ∧ (∀ l ∈ nearer, Assoc.find? name l = none) ∧
    Assoc.find? name level = some a

/-- What is seen on an owner under a name: the owner's own attribute, unless the classes compute theirs, and otherwise
that of the nearest class. -/
inductive Shows (o : Owner) (name : Text) : Option Handler → Prop
  | own {a : Attribute} {seen : Option Handler} (h : Assoc.find? name o.own = some a)
    (hi : ∀ b, o.Inherits name b → ¬ b.Computes) (hs : a.Shows .own seen) : Shows o name seen
  | onInstance {a : Attribute} {seen : Option Handler} (h : o.Inherits name a)
    (ho : Assoc.find? name o.own = none ∨ a.Computes) (hi : o.isInstance = true)
    (hs : a.Shows .onInstance seen) : Shows o name seen
  | onClass {a : Attribute} {seen : Option Handler} (h : o.Inherits name a)
    (ho : Assoc.find? name o.own = none ∨ a.Computes) (hi : o.isInstance = false)
    (hs : a.Shows .onClass seen) : Shows o name seen

theorem inherits_iff {o : Owner} {name : Text} {a : Attribute} :
    o.Inherits name a ↔ o.findInherited? name = some a := by
  rw [findInherited?, List.findSome?_eq_some_iff]
  constructor
  · rintro ⟨nearer, level, further, he, hn, ha⟩
    exact ⟨nearer, level, further, he, ha, hn⟩
  · rintro ⟨nearer, level, further, he, ha, hn⟩
    exact ⟨nearer, level, further, he, hn, ha⟩

theorem read_of_shows {o : Owner} {name : Text} {seen : Option Handler} (h : o.Shows name seen) :
    o.read name = .ok seen := by
  -- Where the owner has none of its own or the classes compute theirs, the classes are asked.
  have hr : ∀ a, o.Inherits name a → Assoc.find? name o.own = none ∨ a.Computes →
      o.read name = if o.isInstance then a.onInstance else .ok a.onClass := by
    intro a ha ho
    rw [inherits_iff] at ha
    have hi : o.readInherited name = if o.isInstance then a.onInstance else .ok a.onClass := by
      rw [readInherited, ha]
    rw [read]
    cases hown : Assoc.find? name o.own with
    | none => exact hi
    | some b =>
      have hc : a.IsComputed = true := Attribute.isComputed_iff.2 (by simpa [hown] using ho)
      simp only [ha, Option.any_some, hc, if_true, hi]
  cases h with
  | @own a _ ha hi hs =>
    have hn : (o.findInherited? name).any Attribute.IsComputed = false := by
      cases hf : o.findInherited? name with
      | none => rfl
      | some b => exact eq_false_of_ne_true fun hb => hi b (inherits_iff.2 hf) (Attribute.isComputed_iff.1 hb)
    simp only [read, ha, hn, Bool.false_eq_true, if_false, Attribute.bare_of_shows hs]
  | onInstance ha ho hi hs => rw [hr _ ha ho, if_pos hi, Attribute.onInstance_of_shows hs]
  | onClass ha ho hi hs => rw [hr _ ha ho, hi, if_neg Bool.false_ne_true, Attribute.onClass_of_shows hs]

theorem isVisible_iff {name : Text} : IsVisible name ↔ ¬ lit "__" <+: name := by
  rw [IsVisible, Option.eq_none_iff_forall_ne_some, List.IsPrefix, not_exists]
  exact forall_congr' fun rest => not_congr (Text.after?_eq_some_iff.trans eq_comm)

theorem mem_names_iff {o : Owner} {name : Text} :
    name ∈ o.names ↔ ¬ lit "__" <+: name ∧ ∃ level ∈ o.own :: o.inherited, name ∈ Assoc.keys level := by
  rw [names, List.mem_mergeSort, List.mem_filter, List.mem_eraseDups, List.mem_flatMap, decide_eq_true_iff,
    isVisible_iff, and_comm]

theorem pairwise_names (o : Owner) : o.names.Pairwise Text.Before := by
  have hn : ∀ l : List Text, l.eraseDups.Nodup := by
    intro l
    rw [← foldl_addNew_nil]
    exact nodup_foldl_addNew List.nodup_nil l
  apply Text.pairwise_before_mergeSort (f := id)
  rw [List.map_id]
  exact (hn _).filter _

end Owner

/-! ## Rules -/

/-- A rule says its condition and its priority. What does not count as given says that there is no condition. -/
inductive MarkRule.Says : MarkRule → Value → Value → Prop
  | rule (condition priority : Value) : Says (.rule condition priority) condition priority
  | absent {v : Value} (h : ¬ v.IsGiven) : Says (.other v) (.text []) (.int 0)

theorem MarkRule.parts_cases (m : MarkRule) :
    (∃ parts, m.Says parts.1 parts.2 ∧ m.parts = .ok parts) ∨
    ∃ v, m = .other v ∧ v.IsGiven ∧ m.parts = .error (.lacks v.kind v.lackedOfRule) := by
  cases m with
  | rule condition priority => exact .inl ⟨_, .rule condition priority, rfl⟩
  | other v =>
    by_cases hg : v.IsGiven
    · exact .inr ⟨v, rfl, hg, if_pos hg⟩
    · exact .inl ⟨_, .absent hg, if_neg hg⟩

/-! ## Failures to resolve -/

/-- A failure to resolve ends discovery: a placeholder that is refused as the refusal, and anything else as it is. -/
inductive ResolveError.Ends : ResolveError → DiscoveryError → Prop
  | refused (c : ConfigError) : Ends (.refused c) (.refused c)
  | other {e : ResolveError} (h : ∀ c, e ≠ .refused c) : Ends e (.unresolvable e)

theorem ends_ofResolveError (e : ResolveError) : e.Ends (.ofResolveError e) := by
  cases e with
  | refused c => exact .refused c
  | _ => exact .other (by rintro c ⟨⟩)

/-! ## Announcements -/

/-- A topic that a handler is declared for, with the handler's name and its bulk settings. -/
structure Announcement where
  handler : Text
  mark : TopicMark
  bulk? : Option BulkSettings

/-- What a handler under a stack announces, the topmost first. -/
def announced (handler : Text) (stack : List Annotation) : List Announcement :=
  (Handler.topics stack).map fun t => ⟨handler, t, Handler.settings? stack⟩

namespace Announcement

def visit (a : Announcement) : Visit := .mark a.handler (.topic a.mark) a.bulk?

variable (res : Resolver) (a : Announcement)

/-- The topic and the component resolve to these texts. -/
def Names (topic pubsub : Text) : Prop :=
  res.resolve a.mark.topic = .ok topic ∧ res.resolve a.mark.pubsub = .ok pubsub

/-- The topic or the component resolves to the empty text. -/
def IsSilent : Prop := ∃ topic pubsub, a.Names res topic pubsub ∧ (topic = [] ∨ pubsub = [])

/-- The dead letter topic is handed over as the text that it resolves to, or as nothing if none is given. -/
inductive NamesDeadLetter : Value → Prop
  | none (h : ¬ a.mark.deadLetter.IsGiven) : NamesDeadLetter .none
  | some {t : Text} (h : a.mark.deadLetter.IsGiven) (ht : res.resolve a.mark.deadLetter = .ok t) :
    NamesDeadLetter (.text t)

/-- The declaration that an announcement comes to. -/
structure Makes (d : Declaration) : Prop where
  /-- The names are those that are resolved, and neither is empty. -/
  names : ∃ topic pubsub, a.Names res topic pubsub ∧ topic ≠ [] ∧ pubsub ≠ [] ∧
    d.topic = .text topic ∧ d.pubsub = .text pubsub
  /-- Without a route events go to the name of the topic. -/
  route : a.mark.route.IsGiven ∧ d.route = a.mark.route ∨ ¬ a.mark.route.IsGiven ∧ d.route = d.topic
  rule : a.mark.rule.Says d.condition d.priority
  deadLetter : a.NamesDeadLetter res d.deadLetter
  metadata : ∃ pairs, a.mark.metadata.StandsFor pairs ∧
    d.metadata = .mapping (pairs.map fun (name, value) => (.text name, .text value))
  bulk : d.bulk = match a.bulk? with
    | none => .none
    | some b => .settings b.enabled b.maxMessages? b.maxAwaitMs?

/-- The first part that cannot be resolved or read. What comes after a name that is empty is not looked at. -/
inductive Fails : DiscoveryError → Prop
  | topic {e : ResolveError} {stop : DiscoveryError} (h : res.resolve a.mark.topic = .error e) (he : e.Ends stop) :
    Fails stop
  | pubsub {topic : Text} {e : ResolveError} {stop : DiscoveryError} (ht : res.resolve a.mark.topic = .ok topic)
    (h : res.resolve a.mark.pubsub = .error e) (he : e.Ends stop) : Fails stop
  | deadLetter {topic pubsub : Text} {e : ResolveError} {stop : DiscoveryError} (hn : a.Names res topic pubsub)
    (ht : topic ≠ []) (hp : pubsub ≠ []) (hg : a.mark.deadLetter.IsGiven)
    (h : res.resolve a.mark.deadLetter = .error e) (he : e.Ends stop) : Fails stop
  | rule {topic pubsub : Text} {deadLetter v : Value} (hn : a.Names res topic pubsub) (ht : topic ≠ [])
    (hp : pubsub ≠ []) (hd : a.NamesDeadLetter res deadLetter) (hr : a.mark.rule = .other v) (hg : v.IsGiven) :
    Fails (.lacks v.kind v.lackedOfRule)
  | metadata {topic pubsub reason : Text} {deadLetter condition priority : Value}
    (hn : a.Names res topic pubsub) (ht : topic ≠ []) (hp : pubsub ≠ []) (hd : a.NamesDeadLetter res deadLetter)
    (hr : a.mark.rule.Says condition priority) (hm : ∀ pairs, ¬ a.mark.metadata.StandsFor pairs)
    (h : Handler.readMetadata a.handler a.mark.metadata =
      .error (.unreadableMetadata a.handler a.mark.metadata reason)) :
    Fails (.refused (.unreadableMetadata a.handler a.mark.metadata reason))

theorem resolveDeadLetter_cases :
    (∃ t?, a.NamesDeadLetter res (.ofOption .text t?) ∧ a.mark.resolveDeadLetter res = .ok t?) ∨
    ∃ e, a.mark.deadLetter.IsGiven ∧ res.resolve a.mark.deadLetter = .error e ∧
      a.mark.resolveDeadLetter res = .error (.ofResolveError e) := by
  unfold TopicMark.resolveDeadLetter
  by_cases hg : a.mark.deadLetter.IsGiven
  · rw [if_pos hg]
    cases hr : res.resolve a.mark.deadLetter with
    | ok t => exact .inl ⟨some t, .some hg hr, rfl⟩
    | error e => exact .inr ⟨e, hg, rfl, rfl⟩
  · rw [if_neg hg]
    exact .inl ⟨none, .none hg, rfl⟩

variable {res a}

/-- Whatever is completed says of each part what was announced. -/
theorem makes_declaration {topic pubsub : Text} {t? : Option Text} {rule : Value × Value} {pairs : List (Text × Text)}
    (hn : a.Names res topic pubsub) (ht : topic ≠ []) (hp : pubsub ≠ [])
    (hd : a.NamesDeadLetter res (.ofOption .text t?)) (hr : a.mark.rule.Says rule.1 rule.2)
    (hm : a.mark.metadata.StandsFor pairs) :
    a.Makes res (a.mark.declaration topic pubsub t? rule pairs a.bulk?) where
  names := ⟨topic, pubsub, hn, ht, hp, rfl, rfl⟩
  route := by
    by_cases hg : a.mark.route.IsGiven
    · exact .inl ⟨hg, if_pos hg⟩
    · exact .inr ⟨hg, if_neg hg⟩
  rule := hr
  deadLetter := hd
  metadata := ⟨pairs, hm, rfl⟩
  bulk := by
    unfold TopicMark.declaration
    cases a.bulk? <;> rfl

theorem complete_cases {topic pubsub : Text} (hn : a.Names res topic pubsub) (ht : topic ≠ []) (hp : pubsub ≠ []) :
    (∃ d, a.Makes res d ∧ a.mark.complete res a.handler a.bulk? topic pubsub = .ok d) ∨
    ∃ e, a.Fails res e ∧ a.mark.complete res a.handler a.bulk? topic pubsub = .error e := by
  unfold TopicMark.complete
  rcases resolveDeadLetter_cases res a with ⟨t?, hd, he⟩ | ⟨e, hg, hr, he⟩
  · rw [he]
    rcases a.mark.rule.parts_cases with ⟨rule, hr, he⟩ | ⟨v, hv, hg, he⟩
    · rw [he]
      rcases Handler.readMetadata_cases a.handler a.mark.metadata with ⟨pairs, hm, he⟩ | ⟨reason, hm, he⟩
      · rw [he]
        exact .inl ⟨_, makes_declaration hn ht hp hd hr hm, rfl⟩
      · exact .inr ⟨_, .metadata hn ht hp hd hr hm he, by rw [he]; rfl⟩
    · rw [he]
      exact .inr ⟨_, .rule hn ht hp hd hv hg, rfl⟩
  · rw [he]
    exact .inr ⟨_, .deadLetter hn ht hp hg hr (ends_ofResolveError e), rfl⟩

variable (res a)

/-- An announcement is silent, makes a declaration, or fails before it could. -/
theorem declaration?_cases :
    (a.IsSilent res ∧ a.mark.declaration? res a.handler a.bulk? = .ok none) ∨
    (∃ d, a.Makes res d ∧ a.mark.declaration? res a.handler a.bulk? = .ok (some d)) ∨
    ∃ e, a.Fails res e ∧ a.mark.declaration? res a.handler a.bulk? = .error e := by
  unfold TopicMark.declaration?
  cases ht : res.resolve a.mark.topic with
  | error e => exact .inr (.inr ⟨_, .topic ht (ends_ofResolveError e), rfl⟩)
  | ok topic =>
    cases hp : res.resolve a.mark.pubsub with
    | error e => exact .inr (.inr ⟨_, .pubsub ht hp (ends_ofResolveError e), rfl⟩)
    | ok pubsub =>
      have hn : a.Names res topic pubsub := ⟨ht, hp⟩
      simp only [Except.mapError, bind, Except.bind]
      by_cases hempty : topic = [] ∨ pubsub = []
      · rw [if_pos hempty]
        exact .inl ⟨⟨topic, pubsub, hn, hempty⟩, rfl⟩
      · obtain ⟨htn, hpn⟩ := not_or.1 hempty
        rw [if_neg hempty]
        rcases complete_cases hn htn hpn with ⟨d, hm, he⟩ | ⟨e, hf, he⟩
        · exact .inr (.inl ⟨d, hm, by rw [he]; rfl⟩)
        · exact .inr (.inr ⟨e, hf, by rw [he]; rfl⟩)

end Announcement

/-! ## Declarations one after another -/

namespace Registry

/-- Announcements are gone through from left to right. One that is silent leaves the registry as it is, and each other
one is one declaration, of the topic that is noted. -/
inductive Runs (res : Resolver) : Registry → List Announcement → List TopicKey → Registry → Prop
  | done (r : Registry) : Runs res r [] [] r
  | silent {r r' : Registry} {a : Announcement} {as : List Announcement} {keys : List TopicKey} (h : a.IsSilent res)
    (rest : Runs res r as keys r') : Runs res r (a :: as) keys r'
  | declared {r r₁ r' : Registry} {a : Announcement} {as : List Announcement} {keys : List TopicKey} {key : TopicKey}
    {d : Declaration} (h : a.Makes res d) (hr : r.register d = .ok (key, r₁)) (rest : Runs res r₁ as keys r') :
    Runs res r (a :: as) (key :: keys) r'

/-- An announcement fails, or its declaration is refused. -/
inductive Stops (res : Resolver) (r : Registry) (a : Announcement) : DiscoveryError → Prop
  | failed {e : DiscoveryError} (h : a.Fails res e) : Stops res r a e
  | refused {d : Declaration} {c : ConfigError} (h : a.Makes res d) (hr : r.register d = .error c) :
    Stops res r a (.refused c)

theorem visit_announcement_cases (res : Resolver) (r : Registry) (a : Announcement) :
    (a.IsSilent res ∧ r.visit res a.visit = .ok (none, r)) ∨
    (∃ d key r', a.Makes res d ∧ r.register d = .ok (key, r') ∧ r.visit res a.visit = .ok (some key, r')) ∨
    ∃ e, r.Stops res a e ∧ r.visit res a.visit = .error e := by
  rcases a.declaration?_cases res with ⟨hs, hd⟩ | ⟨d, hm, hd⟩ | ⟨e, hf, hd⟩
  · refine .inl ⟨hs, ?_⟩
    rw [Announcement.visit, visit, hd]
    rfl
  · have hv : r.visit res a.visit = (r.register d).mapError .refused >>= fun p => pure (some p.1, p.2) := by
      rw [Announcement.visit, visit, hd]
      rfl
    cases hr : r.register d with
    | ok p => exact .inr (.inl ⟨d, p.1, p.2, hm, hr, by rw [hv, hr]; rfl⟩)
    | error c => exact .inr (.inr ⟨_, .refused hm hr, by rw [hv, hr]; rfl⟩)
  · refine .inr (.inr ⟨e, .failed hf, ?_⟩)
    rw [Announcement.visit, visit, hd]
    rfl

/-- The announcements are gone through to the end, or up to the first that stops it. -/
theorem visitAll_announcements (res : Resolver) (r : Registry) (as : List Announcement) :
    (∃ keys r', Runs res r as keys r' ∧ r.visitAll res (as.map Announcement.visit) = (.ok keys, r')) ∨
    ∃ before a after keys r' e, as = before ++ a :: after ∧ Runs res r before keys r' ∧ r'.Stops res a e ∧
      r.visitAll res (as.map Announcement.visit) = (.error e, r') := by
  -- Each declaration leads to another registry, in which the rest is gone through.
  induction as generalizing r with
  | nil => exact .inl ⟨[], r, .done r, rfl⟩
  | cons a as ih =>
    rw [List.map_cons]
    rcases visit_announcement_cases res r a with ⟨hs, hv⟩ | ⟨d, key, r₁, hm, hr, hv⟩ | ⟨e, hstop, hv⟩
    · rw [visitAll_cons_ok hv]
      rcases ih r with ⟨keys, r', hrun, h⟩ | ⟨before, b, after, keys, r', e, rfl, hrun, hstop, h⟩
      · exact .inl ⟨keys, r', .silent hs hrun, by rw [h]; rfl⟩
      · exact .inr ⟨a :: before, b, after, keys, r', e, rfl, .silent hs hrun, hstop, by rw [h]; rfl⟩
    · rw [visitAll_cons_ok hv]
      rcases ih r₁ with ⟨keys, r', hrun, h⟩ | ⟨before, b, after, keys, r', e, rfl, hrun, hstop, h⟩
      · exact .inl ⟨key :: keys, r', .declared hm hr hrun, by rw [h]; rfl⟩
      · exact .inr ⟨a :: before, b, after, key :: keys, r', e, rfl, .declared hm hr hrun, hstop, by rw [h]; rfl⟩
    · rw [visitAll_cons_error hv]
      exact .inr ⟨[], a, as, [], r, e, rfl, .done r, hstop, rfl⟩

end Registry

/-! ## Discovery -/

/-- What is seen is a handler under the stack. Where nothing with marks is seen there is no stack. -/
def Handler.IsUnder (stack : List Annotation) : Option Handler → Prop
  | none => stack = []
  | some h => ofStack stack = .ok h

namespace Owner

/-- What an owner announces, given the stack of each name: name by name, and from the top of each stack down. -/
def announcements (o : Owner) (stack : Text → List Annotation) : List Announcement :=
  o.names.flatMap fun name => announced (o.name ++ lit "." ++ name) (stack name)

theorem visitsOf_eq {o : Owner} {name : Text} {stack : List Annotation} {seen : Option Handler}
    (hs : o.Shows name seen) (hu : Handler.IsUnder stack seen) :
    o.visitsOf name = (announced (o.name ++ lit "." ++ name) stack).map Announcement.visit := by
  rw [visitsOf, read_of_shows hs]
  cases seen with
  | none =>
    obtain rfl : stack = [] := hu
    rfl
  | some h =>
    obtain rfl := Handler.eq_of_ofStack hu
    simp only [announced, List.map_map]
    rfl

theorem visits_eq {o : Owner} {stack : Text → List Annotation}
    (h : ∀ name ∈ o.names, ∃ seen, o.Shows name seen ∧ Handler.IsUnder (stack name) seen) :
    o.visits = (o.announcements stack).map Announcement.visit := by
  rw [visits, announcements, List.map_flatMap]
  refine List.flatMap_congr fun name hn => ?_
  obtain ⟨seen, hs, hu⟩ := h name hn
  exact visitsOf_eq hs hu

end Owner

/-- Discovery is one pass over what an owner announces. The names are those of the owner and of its classes that do not
begin with two underscores, each once and in the order of their code points. The announcements are gone through from
left to right, to the end or up to the first that stops discovery, with all before it declared. -/
theorem discover_in_sequence {o : Owner} {stack : Text → List Annotation}
    (h : ∀ name ∈ o.names, ∃ seen, o.Shows name seen ∧ Handler.IsUnder (stack name) seen) (res : Resolver)
    (r : Registry) :
    o.names.Pairwise Text.Before ∧
    (∀ name, name ∈ o.names ↔ ¬ lit "__" <+: name ∧ ∃ level ∈ o.own :: o.inherited, name ∈ Assoc.keys level) ∧
    ((∃ keys r', Registry.Runs res r (o.announcements stack) keys r' ∧ r.discover res o = (.ok keys, r')) ∨
      ∃ before a after keys r' e, o.announcements stack = before ++ a :: after ∧ Registry.Runs res r before keys r' ∧
        r'.Stops res a e ∧ r.discover res o = (.error e, r')) := by
  refine ⟨o.pairwise_names, fun name => Owner.mem_names_iff, ?_⟩
  rw [Registry.discover, Owner.visits_eq h]
  exact Registry.visitAll_announcements res r (o.announcements stack)

/-- Large orders have a route of their own. -/
def largeOrders : TopicMark where
  topic := .text (lit "orders")
  pubsub := .text (lit "pubsub")
  route := .text (lit "/large")
  rule := .rule (.text (lit "size > 9")) (.int 2)

def returns : TopicMark where
  topic := .text (lit "returns")
  pubsub := .text (lit "pubsub")
  deadLetter := .text (lit "lost")
  metadata := .view [(.text (lit "share"), .text (lit "all"))]

/-- A topic without a name. Its metadata is no mapping, and is not looked at. -/
def nameless : TopicMark where
  topic := .text []
  pubsub := .text (lit "pubsub")
  metadata := .int 5

def payments : TopicMark where
  topic := .text (lit "payments")
  pubsub := .text (lit "pubsub")

/-- Bulk settings stand above, between and below topics. -/
def orderStack : List Annotation := [.topic largeOrders, .bulk (.int 100) .none, .topic returns, .bulk (.int 99) .none]

def paymentStack : List Annotation := [.topic nameless, .topic payments]

def inHundreds : BulkSettings := ⟨.bool true, some ⟨100, by decide⟩, none⟩

/-- An instance of a class that extends another and overrides one of its two handlers. -/
def shop : Owner where
  name := lit "Shop"
  isInstance := true
  own := []
  inherited :=
    [[(lit "on_order", .handler ⟨[.topic largeOrders, .topic returns], some inHundreds⟩),
        (lit "__len__", .handler ⟨[.topic payments], none⟩)],
      [(lit "on_order", .handler ⟨[.topic payments], none⟩),
        (lit "on_payment", .wrapped ⟨[.topic nameless, .topic payments], none⟩)]]

def shopStack (name : Text) : List Annotation := if name = lit "on_order" then orderStack else paymentStack

/-- What the shop announces, from left to right. -/
def shopAnnouncements : List Announcement :=
  [⟨lit "Shop.on_order", largeOrders, some inHundreds⟩, ⟨lit "Shop.on_order", returns, some inHundreds⟩,
    ⟨lit "Shop.on_payment", nameless, none⟩, ⟨lit "Shop.on_payment", payments, none⟩]

def shopKeys : List TopicKey :=
  [⟨lit "pubsub", lit "orders"⟩, ⟨lit "pubsub", lit "returns"⟩, ⟨lit "pubsub", lit "payments"⟩]

/-- What `on_order` declares. -/
def ordered : List Subscription :=
  [{ key := ⟨lit "pubsub", lit "orders"⟩, rules := [⟨lit "/large", lit "size > 9", 2⟩], bulk? := some inHundreds },
    { key := ⟨lit "pubsub", lit "returns"⟩, defaultPath? := some (lit "returns"), deadLetter? := some (lit "lost"),
      metadata := [(lit "share", lit "all")], bulk? := some inHundreds }]

/-- Payments that go to a path. -/
def paidAt (path : Text) : Subscription := { key := ⟨lit "pubsub", lit "payments"⟩, defaultPath? := some path }

/-- What is declared once the shop was gone through. -/
def shopRegistry : Registry := ⟨ordered ++ [paidAt (lit "payments")]⟩

/-- Payments are declared before the shop is gone through. -/
def paidElsewhere : Registry := ⟨[paidAt (lit "/pay")]⟩

/-- What is declared once the payments of the shop have stopped discovery. -/
def stoppedRegistry : Registry := ⟨paidAt (lit "/pay") :: ordered⟩

/-- The payments of the shop against those of before. -/
def paidTwice : DiscoveryError :=
  .refused (.conflict ⟨lit "pubsub", lit "payments"⟩ (.defaultRoute (lit "/pay") (lit "payments")))

theorem names_shop : shop.names = [lit "on_order", lit "on_payment"] := by
  have hk : (((shop.own :: shop.inherited).flatMap Assoc.keys).eraseDups.filter fun name => Owner.IsVisible name) =
      [lit "on_order", lit "on_payment"] := by decide
  rw [Owner.names, hk]
  exact List.mergeSort_of_pairwise (by decide)

theorem visits_shop : shop.visits = [.mark (lit "Shop.on_order") (.topic largeOrders) (some inHundreds),
    .mark (lit "Shop.on_order") (.topic returns) (some inHundreds),
    .mark (lit "Shop.on_payment") (.topic nameless) none, .mark (lit "Shop.on_payment") (.topic payments) none] := by
  rw [Owner.visits, names_shop]
  rfl

theorem discover_shop : Registry.empty.discover {} shop = (.ok shopKeys, shopRegistry) ∧
    paidElsewhere.discover {} shop = (.error paidTwice, stoppedRegistry) := by
  have hres : ∀ t ∈ [lit "pubsub", lit "orders", lit "returns", lit "payments", lit "lost", []],
      ({} : Resolver).resolve (.text t) = .ok t := by
    intro t ht
    exact Resolver.resolve_of_plain ((by decide : ∀ t ∈ [_, _, _, _, _, _], 0x24 ∉ t) t ht)
  simp only [List.forall_mem_cons] at hres
  obtain ⟨hpubsub, horders, hreturns, hpayments, hlost, hempty, -⟩ := hres
  simp only [Registry.discover, visits_shop, Registry.visitAll, Registry.visit, TopicMark.declaration?,
    TopicMark.complete, TopicMark.resolveDeadLetter, largeOrders, returns, nameless, payments, hpubsub, horders,
    hreturns, hpayments, hlost, hempty]
  exact ⟨rfl, rfl⟩

/-- The shop is gone through to the end. The topic without a name is passed over, and the others are declared. Where
payments go elsewhere already the shop is gone through up to its payments. -/
theorem discover_in_sequence_shop :
    (∀ name ∈ shop.names, ∃ seen, shop.Shows name seen ∧ Handler.IsUnder (shopStack name) seen) ∧
    shop.announcements shopStack = shopAnnouncements ∧
    (Registry.Runs {} Registry.empty shopAnnouncements shopKeys shopRegistry ∧
      Registry.empty.discover {} shop = (.ok shopKeys, shopRegistry)) ∧
    ∃ before a after keys, shopAnnouncements = before ++ a :: after ∧
      Registry.Runs {} paidElsewhere before keys stoppedRegistry ∧ Registry.Stops {} stoppedRegistry a paidTwice ∧
      paidElsewhere.discover {} shop = (.error paidTwice, stoppedRegistry) := by
  have h : ∀ name ∈ shop.names, ∃ seen, shop.Shows name seen ∧ Handler.IsUnder (shopStack name) seen := by
    intro name hn
    rw [names_shop] at hn
    rcases List.mem_pair.1 hn with rfl | rfl
    · exact ⟨_, .onInstance ⟨[], _, _, rfl, nofun, rfl⟩ (.inl rfl) rfl (.handler _ _), rfl⟩
    · refine ⟨_, .onInstance ⟨[_], _, _, rfl, ?_, rfl⟩ (.inl rfl) rfl (.wrapped (by decide) _), rfl⟩
      rintro l hl
      rw [List.mem_singleton.1 hl]
      rfl
  have ha : shop.announcements shopStack = shopAnnouncements := by
    rw [Owner.announcements, names_shop]
    rfl
  obtain ⟨hfree, htaken⟩ := discover_shop
  refine ⟨h, ha, ⟨?_, hfree⟩, ?_⟩
  · rcases (discover_in_sequence h {} Registry.empty).2.2 with
      ⟨keys, r', hrun, hd⟩ | ⟨before, a, after, keys, r', e, -, -, -, hd⟩
    · cases hfree.symm.trans hd
      exact ha ▸ hrun
    · cases hfree.symm.trans hd
  · rcases (discover_in_sequence h {} paidElsewhere).2.2 with
      ⟨keys, r', hrun, hd⟩ | ⟨before, a, after, keys, r', e, he, hrun, hstop, hd⟩
    · cases htaken.symm.trans hd
    · cases htaken.symm.trans hd
      exact ⟨before, a, after, keys, ha ▸ he, hrun, hstop, htaken⟩

end PubSub

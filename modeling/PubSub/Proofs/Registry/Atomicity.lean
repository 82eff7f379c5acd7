import PubSub.Proofs.Registry.InPlace
import PubSub.Proofs.Registry.Separation
/-!
# Nothing is left of a refused declaration

A registry that is changed in place is, call by call, the registry of whole declarations (`Represents.callAll`): a draft
follows what a declaration makes of the subscription it holds (`Follows`), and only a draft is ever written, so that
what lay in memory when a call began is there as it was when the call ends (`IsKept`). So a refused declaration leaves
nothing behind, however much of it was taken into the draft (`refused_unchanged`).
-/
namespace PubSub.Memory

/-! ## What stays -/

/-- All that lay in the one memory lies in the other, and the same is stored for the topics. -/
structure IsKept (m₀ m : Memory) : Prop where
  ruleLists : m₀.ruleLists <+: m.ruleLists
  mappings : m₀.mappings <+: m.mappings
  drafts : m₀.drafts <+: m.drafts
  topics : m.topics = m₀.topics

theorem isKept_refl (m : Memory) : m.IsKept m :=
  ⟨List.prefix_rfl, List.prefix_rfl, List.prefix_rfl, rfl⟩

theorem subscription?_eq_some_iff {m : Memory} {place : Nat} {s : Subscription} :
    m.subscription? place = some s ↔ ∃ d rules metadata, m.drafts[place]? = some d ∧
      m.ruleLists[d.rulesAt]? = some rules ∧ m.mappings[d.metadataAt]? = some metadata ∧
      d.holding rules metadata = s := by
  simp [subscription?, Option.bind_eq_some_iff]

theorem getElem?_of_prefix {α : Type} {l l' : List α} (h : l <+: l') {i : Nat} {a : α} (ha : l[i]? = some a) :
    l'[i]? = some a := by
  obtain ⟨t, rfl⟩ := h
  obtain ⟨hi, -⟩ := List.getElem?_eq_some_iff.1 ha
  rwa [List.getElem?_append_left hi]

theorem prefix_set {α : Type} {l l' : List α} (h : l <+: l') {i : Nat} (hi : l.length ≤ i) (a : α) :
    l <+: l'.set i a := by
  obtain ⟨t, rfl⟩ := h
  rw [List.set_append_right _ _ hi]
  exact List.prefix_append _ _

theorem getElem?_set_self_of_some {α : Type} {l : List α} {i : Nat} {a b : α} (h : l[i]? = some b) :
    (l.set i a)[i]? = some a := by
  obtain ⟨hi, -⟩ := List.getElem?_eq_some_iff.1 h
  rw [List.getElem?_set_self hi]

theorem IsKept.subscription? {m₀ m : Memory} (h : m₀.IsKept m) {place : Nat} {s : Subscription}
    (hs : m₀.subscription? place = some s) : m.subscription? place = some s := by
  obtain ⟨d, rules, metadata, hd, hr, hm, hs⟩ := subscription?_eq_some_iff.1 hs
  exact subscription?_eq_some_iff.2 ⟨d, rules, metadata, getElem?_of_prefix h.drafts hd,
    getElem?_of_prefix h.ruleLists hr, getElem?_of_prefix h.mappings hm, hs⟩

/-! ## Actions one after another -/

section On
variable {α β : Type} {m m' : Memory}

theorem on_bind_ok {a : Action α} {f : α → Action β} {x : α} (h : a.on m = (.ok x, m')) :
    (a >>= f).on m = (f x).on m' := by
  show ExceptT.bindCont f (a.on m).1 (a.on m).2 = _
  rw [h]
  rfl

theorem on_bind_error {a : Action α} {f : α → Action β} {e : Refusal} (h : a.on m = (.error e, m')) :
    (a >>= f).on m = (.error e, m') := by
  show ExceptT.bindCont f (a.on m).1 (a.on m).2 = _
  rw [h]
  rfl

theorem on_read {look : Memory → Option α} {x : α} (h : look m = some x) : (read look).on m = (.ok x, m) := by
  refine (on_bind_ok (a := get) (x := m) rfl).trans ?_
  rw [h]
  rfl

theorem on_read_bind {look : Memory → Option α} {x : α} (h : look m = some x) (f : α → Action β) :
    (read look >>= f).on m = (f x).on m :=
  on_bind_ok (on_read h)

end On

theorem declare_eq (place : Nat) (x : Declaration) :
    declare place x = declareRoute place x >>= fun _ =>
      (if x.deadLetter.IsGiven then setDeadLetter place x.deadLetter else pure ()) >>= fun _ =>
        (if x.metadata.IsGiven then mergeMetadata place x.metadata else pure ()) >>= fun _ =>
          match x.bulk with
          | .none => pure ()
          | bulk => setBulk place bulk := by
  unfold declare
  refine congrArg (declareRoute place x >>= ·) (funext fun _ => ?_)
  cases Value.IsGiven.decidable x.deadLetter <;> cases Value.IsGiven.decidable x.metadata <;> rfl

/-! ## A draft -/

/-- A draft that is worked on with its rules and its metadata. They lie where nothing lay before. -/
structure IsDraft (m₀ : Memory) (place : Nat) (d : Draft) (rules : List RoutingRule) (metadata : List (Text × Text))
    (m : Memory) : Prop where
  kept : m₀.IsKept m
  draft : m.drafts[place]? = some d
  rules : m.ruleLists[d.rulesAt]? = some rules
  metadata : m.mappings[d.metadataAt]? = some metadata
  newDraft : m₀.drafts.length ≤ place
  newRules : m₀.ruleLists.length ≤ d.rulesAt
  newMetadata : m₀.mappings.length ≤ d.metadataAt

/-- What an action on a draft comes to, beside what an operation makes of the subscription. The draft holds what the
operation gives, or the operation is refused and so is the action; all that lay there is kept. -/
inductive Follows (m₀ : Memory) (place : Nat) : Except Refusal Unit × Memory → Except ConfigError Subscription → Prop
  | done {d rules metadata m} (h : m₀.IsDraft place d rules metadata m) :
    Follows m₀ place (.ok (), m) (.ok (d.holding rules metadata))
  | refused {c m} (h : m₀.IsKept m) : Follows m₀ place (.error (.of c), m) (.error c)

namespace Follows

variable {m₀ m : Memory} {place : Nat}

theorem bind {a b : Action Unit} {x : Except ConfigError Subscription}
    {f : Subscription → Except ConfigError Subscription} (ha : Follows m₀ place (a.on m) x)
    (hb : ∀ d rules metadata m, m₀.IsDraft place d rules metadata m →
      Follows m₀ place (b.on m) (f (d.holding rules metadata))) :
    Follows m₀ place ((a >>= fun _ => b).on m) (x >>= f) := by
  generalize hm : a.on m = am at ha
  cases ha with
  | done h =>
    rw [on_bind_ok hm]
    exact hb _ _ _ _ h
  | refused h =>
    rw [on_bind_error hm]
    exact .refused h

theorem check {α : Type} {x : Except ConfigError α} {a : α → Action Unit} {f : α → Except ConfigError Subscription}
    (hk : m₀.IsKept m) (h : ∀ v, x = .ok v → Follows m₀ place ((a v).on m) (f v)) :
    Follows m₀ place ((check x >>= a).on m) (x >>= f) := by
  cases x with
  | ok v => exact h v rfl
  | error c => exact .refused hk

theorem refuse (hk : m₀.IsKept m) (c : ConfigError) :
    Follows m₀ place ((Memory.check (.error c) : Action Unit).on m) (.error c) :=
  .refused hk

/-- An action that is done only on a condition. -/
theorem ite {p : Prop} [Decidable p] {a : Action Unit} {d : Draft} {rules metadata}
    {x : Except ConfigError Subscription} (h : m₀.IsDraft place d rules metadata m) (hx : Follows m₀ place (a.on m) x) :
    Follows m₀ place ((if p then a else pure ()).on m) (if p then x else pure (d.holding rules metadata)) := by
  split
  · exact hx
  · exact .done h

end Follows

namespace IsDraft

variable {m₀ m : Memory} {place : Nat} {d : Draft} {rules : List RoutingRule} {metadata : List (Text × Text)}

theorem subscription? (h : m₀.IsDraft place d rules metadata m) :
    m.subscription? place = some (d.holding rules metadata) :=
  subscription?_eq_some_iff.2 ⟨d, rules, metadata, h.draft, h.rules, h.metadata, rfl⟩

/-! ### Writing -/

theorem setRules (h : m₀.IsDraft place d rules metadata m) (rules' : List RoutingRule) :
    m₀.IsDraft place d rules' metadata { m with ruleLists := m.ruleLists.set d.rulesAt rules' } :=
  { h with
    kept := { h.kept with ruleLists := prefix_set h.kept.ruleLists h.newRules rules' }
    rules := getElem?_set_self_of_some h.rules }

theorem setMetadata (h : m₀.IsDraft place d rules metadata m) (metadata' : List (Text × Text)) :
    m₀.IsDraft place d rules metadata' { m with mappings := m.mappings.set d.metadataAt metadata' } :=
  { h with
    kept := { h.kept with mappings := prefix_set h.kept.mappings h.newMetadata metadata' }
    metadata := getElem?_set_self_of_some h.metadata }

/-- Another draft in its place, which has the rules and the metadata of the one that was there. -/
theorem setDraft (h : m₀.IsDraft place d rules metadata m) {n : Draft} (hr : n.rulesAt = d.rulesAt)
    (hm : n.metadataAt = d.metadataAt) :
    m₀.IsDraft place n rules metadata { m with drafts := m.drafts.set place n } where
  kept := { h.kept with drafts := prefix_set h.kept.drafts h.newDraft n }
  draft := getElem?_set_self_of_some h.draft
  rules := hr ▸ h.rules
  metadata := hm ▸ h.metadata
  newDraft := h.newDraft
  newRules := hr ▸ h.newRules
  newMetadata := hm ▸ h.newMetadata

/-! ### Settings -/

theorem addRule (h : m₀.IsDraft place d rules metadata m) (r : RoutingRule) :
    Follows m₀ place ((addRule place r).on m) ((d.holding rules metadata).addRule r) := by
  unfold Memory.addRule
  rw [on_read_bind h.draft, on_read_bind h.rules]
  unfold Subscription.addRule Subscription.ruleAt?
  dsimp only [Draft.holding]
  cases rules.find? fun x => x.priority = r.priority with
  | some existing => exact .refuse h.kept _
  | none => exact .done (h.setRules (rules ++ [r]))

theorem declareRule (h : m₀.IsDraft place d rules metadata m) (r : RoutingRule) :
    Follows m₀ place ((declareRule place r).on m) ((d.holding rules metadata).declareRule r) := by
  unfold Memory.declareRule
  rw [on_read_bind h.draft, on_read_bind h.rules]
  show Follows _ _ _ (if r ∈ rules then _ else _)
  split
  · exact .done h
  · exact h.addRule r

theorem give (h : m₀.IsDraft place d rules metadata m) (x : Setting) (v : Value) :
    Follows m₀ place ((give place x v).on m) ((d.holding rules metadata).give x v) := by
  refine .check h.kept fun t _ => ?_
  rw [on_read_bind h.draft]
  have hs : Follows m₀ place ((writeDraft place (d.withSetting x t)).on m)
      (.ok ((d.holding rules metadata).withSetting x t)) := by
    cases x <;> exact .done (h.setDraft (n := d.withSetting _ t) rfl rfl)
  have hx : (d.holding rules metadata).setting? x = d.setting? x := by
    cases x <;> rfl
  rw [hx]
  cases hc : d.setting? x with
  | none => exact hs
  | some current =>
    show Follows _ _ ((if current = t then _ else _ : Action Unit).on m) (if current = t then _ else _)
    split
    · subst t
      rw [Subscription.withSetting_of_setting? (hx.trans hc)] at hs
      exact hs
    · exact .refuse h.kept _

theorem mergeMetadata (h : m₀.IsDraft place d rules metadata m) (new : Value) :
    Follows m₀ place ((mergeMetadata place new).on m) ((d.holding rules metadata).mergeMetadata new) := by
  unfold Memory.mergeMetadata Subscription.mergeMetadata
  cases new.entries? with
  | none => exact .refuse h.kept _
  | some entries =>
    rw [on_read_bind h.draft]
    refine .check h.kept fun pairs _ => ?_
    rw [on_read_bind h.metadata]
    exact .done (h.setMetadata _)

theorem setBulk (h : m₀.IsDraft place d rules metadata m) (settings : Value) :
    Follows m₀ place ((setBulk place settings).on m) ((d.holding rules metadata).setBulk settings) := by
  unfold Memory.setBulk Subscription.setBulk
  cases BulkSettings.ofValue? settings with
  | none => exact .refuse h.kept _
  | some b =>
    rw [on_read_bind h.draft]
    exact .done (h.setDraft (n := { d with bulk? := some b }) rfl rfl)

theorem declareRoute (h : m₀.IsDraft place d rules metadata m) (x : Declaration) :
    Follows m₀ place ((declareRoute place x).on m) ((d.holding rules metadata).declareRoute x) := by
  unfold Memory.declareRoute Subscription.declareRoute
  split
  · exact .check h.kept fun r _ => h.declareRule r
  · exact h.give .defaultPath x.route

theorem declare (h : m₀.IsDraft place d rules metadata m) (x : Declaration) :
    Follows m₀ place ((declare place x).on m) ((d.holding rules metadata).declare x) := by
  rw [declare_eq, Subscription.declare_eq]
  refine (h.declareRoute x).bind fun d rules metadata m h => ?_
  refine .bind (.ite h (h.give .deadLetter _)) fun d rules metadata m h => ?_
  refine .bind (.ite h (h.mergeMetadata _)) fun d rules metadata m h => ?_
  cases x.bulk with
  | none => exact .done h
  | _ => exact h.setBulk _

end IsDraft

/-! ## What the memory stands for -/

/-- A subscription is what is stored for a topic. -/
def Stores (m : Memory) (p : TopicKey × Nat) (s : Subscription) : Prop := m.subscription? p.2 = some s ∧ s.key = p.1

/-- The subscriptions of a registry lie in memory, topic by topic. -/
def Represents (m : Memory) (r : Registry) : Prop := List.Forall₂ m.Stores m.topics r.subscriptions

theorem represents_empty : empty.Represents Registry.empty := .nil

section Represents
variable {m m' : Memory} {r : Registry} {key : TopicKey}

theorem Represents.view_eq (h : m.Represents r) : m.view = r := by
  obtain ⟨l⟩ := r
  change List.Forall₂ _ _ l at h
  unfold view
  congr 1
  generalize m.topics = ps at h ⊢
  induction h with
  | nil => rfl
  | cons hp _ ih => simpa [hp.1] using ih

theorem Represents.of_isKept (h : m.Represents r) (hk : m.IsKept m') : m'.Represents r := by
  unfold Represents
  rw [hk.topics]
  exact List.Forall₂.imp (fun p s hp => ⟨hk.subscription? hp.1, hp.2⟩) h

theorem Represents.find? (h : m.Represents r) (key : TopicKey) :
    Option.Rel (fun place s => m.subscription? place = some s) (Assoc.find? key m.topics) (r.find? key) := by
  obtain ⟨l⟩ := r
  change List.Forall₂ _ _ l at h
  show Option.Rel _ _ (l.find? fun s => s.key = key)
  generalize m.topics = ps at h ⊢
  induction h with
  | nil => exact .none
  | @cons p s ps l hp _ ih =>
    obtain ⟨hs, hk⟩ := hp
    by_cases he : p.1 = key
    · have hf : (s :: l).find? (fun s => s.key = key) = some s := by simp [hk, he]
      rw [hf, Assoc.find?, if_pos (by simpa using he)]
      exact .some hs
    · have hf : (s :: l).find? (fun s => s.key = key) = l.find? fun s => s.key = key := by simp [hk, he]
      rw [hf, Assoc.find?, if_neg (by simpa using he)]
      exact ih

/-- A draft becomes what is stored for its topic. -/
theorem Represents.install (h : m.Represents r) {place : Nat} {s : Subscription}
    (hs : m.subscription? place = some s) :
    Represents { m with topics := Assoc.insert s.key place m.topics } (r.put s) := by
  obtain ⟨l⟩ := r
  change List.Forall₂ _ _ l at h
  show List.Forall₂ m.Stores (Assoc.insert s.key place m.topics) (Registry.putInto s l)
  generalize m.topics = ps at h
  induction h with
  | nil => exact .cons ⟨hs, rfl⟩ .nil
  | @cons p t ps l hp hps ih =>
    by_cases he : t.key = s.key
    · have he' : p.1 = s.key := hp.2.symm.trans he
      rw [Assoc.insert, if_pos (by simpa using he'), Registry.putInto, if_pos he]
      exact .cons ⟨hs, he'.symm⟩ hps
    · have he' : p.1 ≠ s.key := fun hk => he (hp.2.trans hk)
      rw [Assoc.insert, if_neg (by simpa using he'), Registry.putInto, if_neg he]
      exact .cons hp ih

end Represents

/-! ## Calls -/

/-- A subscription that is laid down is a draft. -/
theorem exists_layDown (m : Memory) (s : Subscription) : ∃ place d m', (layDown s).on m = (.ok place, m') ∧
    m.IsDraft place d s.rules s.metadata m' ∧ d.holding s.rules s.metadata = s := by
  let d : Draft := ⟨s.key, m.ruleLists.length, m.mappings.length, s.defaultPath?, s.deadLetter?, s.bulk?⟩
  let m' : Memory := ⟨m.ruleLists ++ [s.rules], m.mappings ++ [s.metadata], m.drafts ++ [d], m.topics⟩
  have hk : m.IsKept m' := ⟨List.prefix_append _ _, List.prefix_append _ _, List.prefix_append _ _, rfl⟩
  have hd : m.IsDraft m.drafts.length d s.rules s.metadata m' :=
    { kept := hk
      draft := List.getElem?_concat_length ..
      rules := List.getElem?_concat_length ..
      metadata := List.getElem?_concat_length ..
      newDraft := Nat.le_refl _
      newRules := Nat.le_refl _
      newMetadata := Nat.le_refl _ }
  exact ⟨m.drafts.length, d, m', rfl, hd, rfl⟩

section Calls
variable {m : Memory} {r : Registry}

theorem Represents.exists_draftOf (h : m.Represents r) (key : TopicKey) : ∃ place d rules metadata m',
    (draftOf key).on m = (.ok place, m') ∧ m.IsDraft place d rules metadata m' ∧
      d.holding rules metadata = r.standing key := by
  have hf := h.find? key
  rw [draftOf, on_bind_ok (a := get) (x := m) rfl]
  unfold Registry.standing
  generalize Assoc.find? key m.topics = place? at hf ⊢
  generalize r.find? key = s? at hf ⊢
  cases hf with
  | none =>
    obtain ⟨place, d, m', hl, hm, hs⟩ := exists_layDown m { key }
    exact ⟨place, d, _, _, m', hl, hm, hs⟩
  | @some _ s hs =>
    obtain ⟨place, d, m', hl, hm, hs'⟩ := exists_layDown m s
    exact ⟨place, d, _, _, m', (on_read_bind hs _).trans hl, hm, hs'⟩

/-- What a declaration comes to in memory is what it comes to in the registry. -/
theorem Represents.register (h : m.Represents r) (d : Declaration) :
    (∃ key r' m', r.register d = .ok (key, r') ∧ (register d).on m = (.ok key, m') ∧ m'.Represents r') ∨
    ∃ c m', r.register d = .error c ∧ (register d).on m = (.error (.of c), m') ∧ m.IsKept m' := by
  cases hk : TopicKey.ofValues d.pubsub d.topic with
  | error c =>
    refine .inr ⟨c, m, ?_, ?_, m.isKept_refl⟩
    · unfold Registry.register
      rw [hk]
      rfl
    · unfold Memory.register
      rw [hk]
      rfl
  | ok key =>
    obtain ⟨place, x, rules, metadata, m₁, hd, hx, hs⟩ := h.exists_draftOf key
    have hr : (Memory.register d).on m =
        (declare place d >>= fun _ => Memory.install key place >>= fun _ => pure key).on m₁ := by
      unfold Memory.register
      rw [hk]
      exact on_bind_ok hd
    have hf := hx.declare d
    rw [hs] at hf
    rw [hr, Registry.register_eq_map hk]
    generalize hm : (declare place d).on m₁ = am at hf
    generalize hy : (r.standing key).declare d = y at hf
    cases hf with
    | @done x' rules' metadata' m₂ h' =>
      obtain rfl : x'.key = key := (Registry.key_of_declare hy).trans (r.standing_key key)
      have hi := (h.of_isKept h'.kept).install h'.subscription?
      exact .inl ⟨_, _, _, rfl, on_bind_ok hm, hi⟩
    | @refused c m₂ h' => exact .inr ⟨c, m₂, rfl, on_bind_error hm, h'⟩

/-- A call comes in memory to what it comes to in the registry, and leaves there what it leaves. -/
theorem Represents.call (h : m.Represents r) (c : Call) :
    ((call c).on m).1 = (r.call c).1.mapError .of ∧ ((call c).on m).2.Represents (r.call c).2 := by
  cases c with
  | clear => exact ⟨rfl, .nil⟩
  | register d =>
    have hc : (Memory.call (.register d)).on m = (Memory.register d >>= fun key => pure (some key)).on m := rfl
    rcases h.register d with ⟨key, r', m', hr, hm, h'⟩ | ⟨c, m', hr, hm, hk⟩
    · rw [hc, on_bind_ok hm]
      simp only [Registry.call, hr]
      exact ⟨rfl, h'⟩
    · rw [hc, on_bind_error hm]
      simp only [Registry.call, hr]
      exact ⟨rfl, h.of_isKept hk⟩

theorem Represents.callAll (h : m.Represents r) (cs : List Call) : (m.callAll cs).Represents (r.callAll cs) := by
  induction cs generalizing m r with
  | nil => exact h
  | cons c cs ih => exact ih (h.call c).2

end Calls

/-! ## Refused declarations -/

/-- After any run of calls, a declaration that is refused leaves everything as it was: the topics and their order, and
for each topic all that is declared. What refuses it is an error of the declaration, and the one that the declaration as
a whole comes to, if the integers that were handed over can be written out. -/
theorem refused_unchanged (cs : List Call) (d : Declaration) {x : Refusal} {m' : Memory}
    (h : (register d).on (empty.callAll cs) = (.error x, m')) :
    (m'.topics = (empty.callAll cs).topics) ∧
    (∀ place s, (empty.callAll cs).subscription? place = some s → m'.subscription? place = some s) ∧
    (m'.view = (empty.callAll cs).view) ∧ ((empty.callAll cs).view = Registry.empty.callAll cs) ∧
    ((∀ i ∈ d.integers, ¬ Json.IsLong i) → ∃ c, x = .config c ∧ (Registry.empty.callAll cs).register d = .error c) := by
  have hr : (empty.callAll cs).Represents (Registry.empty.callAll cs) := represents_empty.callAll cs
  rcases hr.register d with ⟨key, r', m₁, -, hm, -⟩ | ⟨c, m₁, hc, hm, hk⟩
  · rw [hm] at h
    cases h
  · rw [hm] at h
    obtain ⟨rfl, rfl⟩ : Refusal.of c = x ∧ m₁ = m' := by
      cases h
      exact ⟨rfl, rfl⟩
    refine ⟨hk.topics, fun place s => hk.subscription?, ?_, hr.view_eq, fun hi => ⟨c, ?_, hc⟩⟩
    · rw [(hr.of_isKept hk).view_eq, hr.view_eq]
    · have hw : c.IsWordable := fun i hm => hi i (Registry.integers_of_register hc hm)
      rw [Refusal.of, if_pos hw]

/-- A declaration of a rule and a dead letter topic. -/
def ruleWithDeadLetter (priority : Int) (deadLetter : String) : Declaration :=
  { pubsub := .text (lit "pubsub"), topic := .text (lit "orders"), route := .text (lit "/big"),
    condition := .text (lit "size > 9"), priority := .int priority, deadLetter := .text (lit deadLetter) }

def lostCalls : List Call := [.register (ruleWithDeadLetter 1 "lost")]

/-- Another dead letter topic refuses the declaration when the draft has got a second rule already. -/
theorem refused_unchanged_halfway :
    ∃ c m', (register (ruleWithDeadLetter 2 "missing")).on (empty.callAll lostCalls) = (.error (.config c), m') ∧
      (m'.ruleLists.map List.length = [1, 2]) ∧ (m'.view = (empty.callAll lostCalls).view) ∧
      (∀ i ∈ (ruleWithDeadLetter 2 "missing").integers, ¬ Json.IsLong i) ∧
      (Registry.empty.callAll lostCalls).register (ruleWithDeadLetter 2 "missing") = .error c := by
  obtain ⟨c, m', h, hl⟩ : ∃ c m', (register (ruleWithDeadLetter 2 "missing")).on (empty.callAll lostCalls) =
      (.error (.config c), m') ∧ m'.ruleLists.map List.length = [1, 2] := ⟨_, _, rfl, rfl⟩
  have hi : ∀ i ∈ (ruleWithDeadLetter 2 "missing").integers, ¬ Json.IsLong i := by
    intro i hi
    obtain rfl : i = 2 := List.mem_singleton.1 hi
    exact Json.not_isLong (k := 1) (by decide) (by decide)
  obtain ⟨-, -, hv, -, he⟩ := refused_unchanged lostCalls _ h
  obtain ⟨c', hc, hr⟩ := he hi
  cases hc
  exact ⟨c, m', h, hl, hv, hi, hr⟩

end PubSub.Memory

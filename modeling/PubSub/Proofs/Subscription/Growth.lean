import PubSub.Proofs.Registry.Atomicity
import PubSub.Subscription.Change
/-!
# What a subscription keeps while it is built

A subscription in memory is changed step by step, in whatever order and with whatever values. A step that is refused
writes nothing, so metadata is merged as a whole or not at all (`Undivided`). A step that is not refused only adds: a
rule at the end, a path or a topic where there was none, values of names (`GrowsTo`). Priorities stay distinct, so the
entry, which can be built at any time, lists the rules in the one order that there is (`step_grows`).
-/
namespace PubSub

open Manifest (Entry)

namespace Subscription

/-! ## What changes keep -/

/-- No two rules have one priority, and no name of metadata stands twice. -/
structure Distinct (s : Subscription) : Prop where
  priorities : (s.rules.map RoutingRule.priority).Nodup
  names : (Assoc.keys s.metadata).Nodup

/-- All that is declared stays declared, and at most one rule comes after the others. -/
structure GrowsTo (s s' : Subscription) : Prop where
  key : s'.key = s.key
  rules : s.rules <+: s'.rules
  oneRule : s'.rules.length ≤ s.rules.length + 1
  default : ∀ path, s.defaultPath? = some path → s'.defaultPath? = some path
  deadLetter : ∀ topic, s.deadLetter? = some topic → s'.deadLetter? = some topic
  names : Assoc.keys s.metadata ⊆ Assoc.keys s'.metadata

theorem distinct_blank (key : TopicKey) : ({ key } : Subscription).Distinct := ⟨List.nodup_nil, List.nodup_nil⟩

theorem growsTo_refl (s : Subscription) : s.GrowsTo s :=
  ⟨rfl, List.prefix_rfl, Nat.le_succ _, fun _ h => h, fun _ h => h, List.Subset.refl _⟩

theorem GrowsTo.isRouted {s s' : Subscription} (h : s.GrowsTo s') (hr : s.IsRouted) : s'.IsRouted := by
  intro hn
  have hp := h.rules
  rw [hn] at hp
  exact hr (List.prefix_nil.1 hp)

/-- A setting that is given already is as it was. -/
theorem growsTo_of_give {s s' : Subscription} {x : Setting} {v : Value} (hs : s.Distinct) (h : s.give x v = .ok s') :
    s.GrowsTo s' ∧ s'.Distinct := by
  obtain ⟨t, -, hf, rfl⟩ := give_eq_ok_iff.1 h
  have hkept : ∀ current ∈ s.setting? x, some t = some current := fun _ hc => congrArg some (hf _ hc).symm
  cases x with
  | defaultPath => exact ⟨{ s.growsTo_refl with default := hkept }, hs.priorities, hs.names⟩
  | deadLetter => exact ⟨{ s.growsTo_refl with deadLetter := hkept }, hs.priorities, hs.names⟩

/-- A change that is not refused only adds to what is declared. -/
theorem growsTo_of_apply {s s' : Subscription} {c : Change} (hs : s.Distinct) (h : s.apply c = .ok s') :
    s.GrowsTo s' ∧ s'.Distinct := by
  cases c with
  | addRule path condition priority =>
    -- No rule has the priority yet, so the new rule is none of those that are there.
    obtain ⟨r, -, h⟩ := bind_eq_ok_iff.1 h
    obtain ⟨hn, rfl⟩ := addRule_eq_ok_iff.1 h
    have hr : r ∉ s.rules := fun hr => hn r hr rfl
    have hp := nodup_deliver_rules (x := .rule r) hs.priorities (.inr hn)
    simp only [deliver, hr, if_false] at hp
    exact ⟨{ s.growsTo_refl with
      rules := List.prefix_append _ _
      oneRule := by rw [List.length_append, List.length_singleton] }, hp, hs.names⟩
  | setDefaultPath path => exact growsTo_of_give hs h
  | setDeadLetter topic => exact growsTo_of_give hs h
  | mergeMetadata metadata =>
    obtain ⟨entries, -, pairs, -, rfl⟩ := mergeMetadata_eq_ok_iff.1 h
    refine ⟨{ s.growsTo_refl with names := ?_ }, hs.priorities, Assoc.nodup_keys_insertAll _ hs.names⟩
    intro name hname
    rw [Assoc.keys_insertAll]
    exact mem_foldl_addNew.2 (.inl hname)
  | setBulk settings =>
    obtain ⟨b, -, rfl⟩ := setBulk_eq_ok_iff.1 h
    exact ⟨{ s.growsTo_refl with }, hs.priorities, hs.names⟩

/-! ## Where the entry sends events -/

/-- An entry goes by a table exactly if there are rules, and by one path exactly if there are none but a default path.
The table has each rule once, in strictly ascending priority. -/
structure IsRoutedBy (s : Subscription) (e : Entry) : Prop where
  table : e.routes?.isSome ↔ s.rules ≠ []
  flat : e.route?.isSome ↔ s.rules = [] ∧ s.defaultPath?.isSome
  notBoth : ¬ (e.route?.isSome ∧ e.routes?.isSome)
  route : ∀ path, e.route? = some path → s.defaultPath? = some path
  routes : ∀ r, e.routes? = some r → r.default? = s.defaultPath? ∧ ∃ rules : List RoutingRule,
    r.rules = rules.map (fun x => ⟨x.condition, x.path⟩) ∧ rules.Perm s.rules ∧
      rules.Pairwise fun a b => a.priority < b.priority

theorem isRoutedBy_of_toEntry {s : Subscription} (hs : s.Distinct) {e : Entry} (h : s.toEntry = .ok e) :
    s.IsRoutedBy e := by
  obtain ⟨bulk?, -, rfl⟩ := (toEntry_eq_ok_iff hs.names).1 h
  have hb := s.not_both_routes bulk?
  by_cases hr : s.IsRouted
  · have hroute : (s.entryWith bulk?).route? = none := if_pos hr
    have hroutes : (s.entryWith bulk?).routes? = some ⟨s.listedRules, s.defaultPath?⟩ := if_pos hr
    have hn : s.rules ≠ [] := hr
    refine ⟨by simp [hroutes, hn], by simp [hroute, hn], hb, by simp [hroute], ?_⟩
    intro r he
    rw [hroutes] at he
    cases he
    exact ⟨rfl, s.orderedRules, rfl, List.mergeSort_perm _ _, pairwise_orderedRules hs.priorities⟩
  · have hroute : (s.entryWith bulk?).route? = s.defaultPath? := if_neg hr
    have hroutes : (s.entryWith bulk?).routes? = none := if_neg hr
    have hn : s.rules = [] := not_not.1 hr
    exact ⟨by simp [hroutes, hn], by simp [hroute, hn], hb, by simp [hroute], by simp [hroutes]⟩

/-! ## Steps -/

/-- A step in building a subscription. -/
inductive Step
  | change (c : Change)
  | build

/-- What a step comes to, an entry if it builds one. -/
def outcome (s : Subscription) : Step → Except (Refusal ⊕ Manifest.Invalid) (Option Entry)
  | .change c => ((s.apply c).mapError fun e => .inl (.of e)).map fun _ => none
  | .build => (s.toEntry.mapError .inr).map some

/-- The subscription after a step. -/
def after (s : Subscription) : Step → Subscription
  | .change c => (s.change c).2
  | .build => s

/-- What a step may make of a subscription. -/
structure Advances (s : Subscription) (x : Step) (outcome : Except (Refusal ⊕ Manifest.Invalid) (Option Entry))
    (s' : Subscription) : Prop where
  refused : ∀ e, outcome = .error e → s' = s
  grows : s.GrowsTo s'
  distinct : s'.Distinct
  staysRouted : s.IsRouted → s'.IsRouted
  /-- Metadata that is not refused is taken over with all its pairs. -/
  merged : ∀ v y, x = .change (.mergeMetadata v) → outcome = .ok y →
    ∃ entries pairs, v.entries? = some entries ∧
      List.Forall₂ (fun p m => p.1.IsText m.1 ∧ p.2.IsText m.2) entries pairs ∧
      s' = { s with metadata := Assoc.insertAll pairs s.metadata }
  built : ∀ e, outcome = .ok (some e) → s.IsRoutedBy e

/-- A step is refused, or it is a change that is made, or it builds the entry. -/
theorem step_cases (s : Subscription) (x : Step) :
    (∃ e, s.outcome x = .error e ∧ s.after x = s) ∨
    (∃ c s', x = .change c ∧ s.apply c = .ok s' ∧ s.outcome x = .ok none ∧ s.after x = s') ∨
    ∃ e, x = .build ∧ s.toEntry = .ok e ∧ s.outcome x = .ok (some e) ∧ s.after x = s := by
  cases x with
  | change c =>
    cases ha : s.apply c with
    | error e => exact .inl ⟨.inl (.of e), by rw [outcome, ha]; rfl, by rw [after, change, ha]⟩
    | ok s' => exact .inr (.inl ⟨c, s', rfl, ha, by rw [outcome, ha]; rfl, by rw [after, change, ha]⟩)
  | build =>
    cases he : s.toEntry with
    | error e => exact .inl ⟨.inr e, by rw [outcome, he]; rfl, rfl⟩
    | ok e => exact .inr (.inr ⟨e, rfl, rfl, by rw [outcome, he]; rfl, rfl⟩)

theorem advances {s : Subscription} (hs : s.Distinct) (x : Step) : s.Advances x (s.outcome x) (s.after x) := by
  rcases s.step_cases x with ⟨e, ho, ha⟩ | ⟨c, s', rfl, hc, ho, ha⟩ | ⟨e, rfl, he, ho, ha⟩
  · rw [ho, ha]
    exact ⟨fun _ _ => rfl, s.growsTo_refl, hs, id, nofun, nofun⟩
  · obtain ⟨hg, hd⟩ := growsTo_of_apply hs hc
    rw [ho, ha]
    refine ⟨nofun, hg, hd, hg.isRouted, ?_, nofun⟩
    rintro v y hx -
    cases hx
    obtain ⟨entries, hv, pairs, hp, hs'⟩ := mergeMetadata_eq_ok_iff.1 hc
    exact ⟨entries, pairs, hv, hp, hs'⟩
  · rw [ho, ha]
    refine ⟨nofun, s.growsTo_refl, hs, id, nofun, ?_⟩
    rintro _ ⟨⟩
    exact isRoutedBy_of_toEntry hs he

end Subscription

namespace Memory

open Subscription (Step)

/-! ## Steps in place -/

/-- A change of what lies at a place. -/
def change (place : Nat) : Change → Action Unit
  | .addRule path condition priority => do
    let r ← check (RoutingRule.ofValues path condition priority)
    addRule place r
  | .setDefaultPath path => setDefaultPath place path
  | .setDeadLetter topic => setDeadLetter place topic
  | .mergeMetadata metadata => mergeMetadata place metadata
  | .setBulk settings => setBulk place settings

/-- What a step comes to, an entry if it builds one, and the memory afterwards. -/
def step (place : Nat) (m : Memory) : Step → Except (Refusal ⊕ Manifest.Invalid) (Option Entry) × Memory
  | .change c => ((((change place c).on m).1.mapError .inl).map fun _ => none, ((change place c).on m).2)
  | .build =>
    match m.subscription? place with
    | none => (.error (.inl .dangling), m)
    | some s => ((s.toEntry.mapError .inr).map some, m)

/-- The memory after some steps, one after another. -/
def stepAll (place : Nat) (m : Memory) (xs : List Step) : Memory := xs.foldl (fun m x => (m.step place x).2) m

/-! ## Refused changes -/

/-- An action that is refused writes nothing. -/
def Undivided {α : Type} (a : Action α) : Prop := ∀ m e m', a.on m = (.error e, m') → m' = m

section Undivided
variable {α β : Type}

theorem undivided_check (x : Except ConfigError α) : Undivided (check x) := by
  intro m e m' h
  cases x <;> cases h
  rfl

theorem undivided_check_bind {x : Except ConfigError α} {f : α → Action β} (h : ∀ a, Undivided (f a)) :
    Undivided (check x >>= f) := by
  cases x with
  | ok a => exact h a
  | error c => exact undivided_check (.error c)

theorem on_read_none {m : Memory} {look : Memory → Option α} (h : look m = none) :
    (read look).on m = (.error .dangling, m) := by
  refine (on_bind_ok (a := get) (x := m) rfl).trans ?_
  rw [h]
  rfl

theorem undivided_read_bind {look : Memory → Option α} {f : α → Action β} (h : ∀ a, Undivided (f a)) :
    Undivided (read look >>= f) := by
  intro m e m' hm
  cases hl : look m with
  | some a =>
    rw [on_read_bind hl] at hm
    exact h a m e m' hm
  | none =>
    rw [on_bind_error (on_read_none hl)] at hm
    cases hm
    rfl

theorem undivided_modify (f : Memory → Memory) : Undivided (modify f) := by
  intro m e m' h
  cases h

end Undivided

section Changes
variable (place : Nat)

theorem undivided_addRule (r : RoutingRule) : Undivided (addRule place r) := by
  refine undivided_read_bind fun d => undivided_read_bind fun rules => ?_
  cases rules.find? fun x => x.priority = r.priority with
  | some existing => exact undivided_check _
  | none => exact undivided_modify _

/-- What is given already is written again or refused. -/
theorem undivided_give (x : Setting) (v : Value) : Undivided (give place x v) := by
  refine undivided_check_bind fun t => undivided_read_bind fun d => ?_
  cases d.setting? x with
  | none => exact undivided_modify _
  | some current =>
    show Undivided (if current = t then _ else _)
    split
    · exact undivided_modify _
    · exact undivided_check _

/-- All pairs are checked before one is written. -/
theorem undivided_mergeMetadata (metadata : Value) : Undivided (mergeMetadata place metadata) := by
  unfold mergeMetadata
  cases metadata.entries? with
  | none => exact undivided_check _
  | some entries =>
    refine undivided_read_bind fun d => undivided_check_bind fun pairs => undivided_read_bind fun merged => ?_
    exact undivided_modify _

theorem undivided_setBulk (settings : Value) : Undivided (setBulk place settings) := by
  unfold setBulk
  cases BulkSettings.ofValue? settings with
  | none => exact undivided_check _
  | some b => exact undivided_read_bind fun d => undivided_modify _

theorem undivided_change (c : Change) : Undivided (change place c) := by
  cases c with
  | addRule path condition priority => exact undivided_check_bind fun r => undivided_addRule place r
  | setDefaultPath path => exact undivided_give place .defaultPath path
  | setDeadLetter topic => exact undivided_give place .deadLetter topic
  | mergeMetadata metadata => exact undivided_mergeMetadata place metadata
  | setBulk settings => exact undivided_setBulk place settings

end Changes

theorem step_error {place : Nat} {m : Memory} {x : Step} {e : Refusal ⊕ Manifest.Invalid}
    (h : (m.step place x).1 = .error e) : (m.step place x).2 = m := by
  cases x with
  | build =>
    unfold step
    cases m.subscription? place <;> rfl
  | change c =>
    show ((change place c).on m).2 = m
    generalize hm : (change place c).on m = am
    obtain ⟨_ | _, m'⟩ := am
    · exact undivided_change place c m _ m' hm
    · rw [step, hm] at h
      cases h

/-! ## What a step makes of a subscription -/

/-- What a change comes to in memory is what it comes to as a whole. -/
theorem IsDraft.change {m₀ m : Memory} {place : Nat} {d : Draft} {rules : List RoutingRule}
    {metadata : List (Text × Text)} (h : m₀.IsDraft place d rules metadata m) (c : Change) :
    Follows m₀ place ((change place c).on m) ((d.holding rules metadata).apply c) := by
  cases c with
  | addRule path condition priority => exact .check h.kept fun r _ => h.addRule r
  | setDefaultPath path => exact h.give .defaultPath path
  | setDeadLetter topic => exact h.give .deadLetter topic
  | mergeMetadata new => exact h.mergeMetadata new
  | setBulk settings => exact h.setBulk settings

/-- A subscription that is built lies at a place that is new, and is in order. -/
def IsBuilt (m₀ : Memory) (place : Nat) (m : Memory) (s : Subscription) : Prop :=
  s.Distinct ∧ ∃ d rules metadata, m₀.IsDraft place d rules metadata m ∧ d.holding rules metadata = s

section Run
variable {m₀ m : Memory} {place : Nat} {s : Subscription}

theorem IsBuilt.subscription? (h : IsBuilt m₀ place m s) : m.subscription? place = some s := by
  obtain ⟨-, d, rules, metadata, hd, rfl⟩ := h
  exact hd.subscription?

theorem IsBuilt.step (h : IsBuilt m₀ place m s) (x : Step) :
    (m.step place x).1 = s.outcome x ∧ IsBuilt m₀ place (m.step place x).2 (s.after x) := by
  cases x with
  | build =>
    rw [Memory.step, h.subscription?]
    exact ⟨rfl, h⟩
  | change c =>
    have hn := (Subscription.advances h.1 (.change c)).distinct
    obtain ⟨hs, d, rules, metadata, hd, rfl⟩ := h
    have hf := hd.change c
    generalize hm : (Memory.change place c).on m = am at hf
    generalize hy : (d.holding rules metadata).apply c = y at hf
    cases hf with
    | done h' =>
      rw [Subscription.after, Subscription.change, hy] at hn ⊢
      rw [Memory.step, hm, Subscription.outcome, hy]
      exact ⟨rfl, hn, _, _, _, h', rfl⟩
    | refused h' =>
      rw [Subscription.after, Subscription.change, hy]
      rw [Memory.step, hm, Subscription.outcome, hy]
      -- Only here it matters that nothing was written: the draft holds what it held.
      obtain rfl := undivided_change place c _ _ _ hm
      exact ⟨rfl, hs, d, rules, metadata, hd, rfl⟩

theorem IsBuilt.stepAll (h : IsBuilt m₀ place m s) (xs : List Step) :
    ∃ s', IsBuilt m₀ place (m.stepAll place xs) s' := by
  induction xs generalizing m s with
  | nil => exact ⟨s, h⟩
  | cons x xs ih => exact ih (h.step x).2

theorem isBuilt_layDown (m₀ : Memory) (key : TopicKey) :
    IsBuilt m₀ m₀.drafts.length ((layDown { key }).on m₀).2 { key } := by
  obtain ⟨place, d, m', hl, hd, hs⟩ := exists_layDown m₀ { key }
  cases hl
  exact ⟨Subscription.distinct_blank key, d, _, _, hd, hs⟩

end Run

/-- A subscription that begins empty is changed and built step by step, with any values and in any order. Each step
comes to what it comes to for the subscription as a whole, and only adds to it. One that is refused leaves the memory
as it was. -/
theorem step_grows (m₀ : Memory) (key : TopicKey) (xs : List Step) (x : Step) :
    let place := m₀.drafts.length
    let m := ((layDown { key }).on m₀).2.stepAll place xs
    ∃ s s', m.subscription? place = some s ∧ (m.step place x).2.subscription? place = some s' ∧
      (m.step place x).1 = s.outcome x ∧ s.Advances x (m.step place x).1 s' ∧
      (∀ e, (m.step place x).1 = .error e → (m.step place x).2 = m) := by
  intro place m
  obtain ⟨s, hs⟩ := (isBuilt_layDown m₀ key).stepAll xs
  obtain ⟨ho, hs'⟩ := hs.step x
  refine ⟨s, s.after x, hs.subscription?, hs'.subscription?, ho, ?_, fun e => step_error⟩
  rw [ho]
  exact Subscription.advances hs.1 x

-- Two rules, and between them metadata of which the second pair is no good: both rules are there, in the order in which
-- they came, and nothing of the metadata.
example : ((((layDown { key := ⟨lit "pubsub", lit "orders"⟩ }).on empty).2.stepAll 0
    [.change (.addRule (.text (lit "/late")) (.text (lit "late")) (.int 2)),
      .change (.mergeMetadata (.mapping [(.text (lit "k"), .text (lit "v")), (.text (lit "n"), .int 1)])),
      .change (.addRule (.text (lit "/early")) (.text (lit "early")) (.int 1))]).subscription? 0).map
    (fun s => (s.rules.map RoutingRule.priority, s.metadata)) = some ([2, 1], []) := rfl

end Memory

end PubSub

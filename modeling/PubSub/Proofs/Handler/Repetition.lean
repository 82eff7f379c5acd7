import PubSub.Handler.Discovery
import PubSub.Proofs.Registry.Adoption
import PubSub.Proofs.Registry.Soundness
/-!
# Discovery once more

A visit either declares something or changes nothing (`visit_cases`), so what the visits make of a registry is what some
terms make of it. Gone through once more, they declare the same terms again. One such declaration may undo a later one
for a while, but all of them together lead back to where they led before; and where a visit failed, it fails in the
same registry again. So discovery comes to the same once more, in success and in failure (`discover_again`).
-/
namespace PubSub.Registry

/-! ## One visit -/

/-- A visit that succeeds declares nothing, in whatever registry, or it declares terms that fit, in whatever registry
they fit. -/
theorem visit_cases {res : Resolver} {r r' : Registry} {v : Visit} {key? : Option TopicKey}
    (h : r.visit res v = .ok (key?, r')) :
    (r' = r ∧ ∀ q : Registry, q.visit res v = .ok (key?, q)) ∨
    ∃ (d : Declaration) (t : Terms), d.Says t ∧ t.Fits (r.standing t.key) ∧ r' = r.adopt t ∧
      ∀ q : Registry, t.Fits (q.standing t.key) → q.visit res v = .ok (key?, q.adopt t) := by
  match v with
  | .failing message => cases h
  | .mark handler (.stray kind) bulk? => cases h
  | .mark handler (.topic m) bulk? =>
    simp only [visit, bind_eq_ok_iff] at h
    obtain ⟨d?, hd, h⟩ := h
    cases d? with
    | none =>
      cases h
      refine .inl ⟨rfl, fun q => ?_⟩
      simp only [visit, bind_eq_ok_iff]
      exact ⟨none, hd, rfl⟩
    | some d =>
      simp only [bind_eq_ok_iff, mapError_eq_ok_iff] at h
      obtain ⟨⟨key, r₁⟩, hr, h⟩ := h
      cases h
      obtain ⟨t, ht, rfl, hf, rfl⟩ := register_eq_ok_iff.1 hr
      refine .inr ⟨d, t, ht, hf, rfl, fun q hq => ?_⟩
      simp only [visit, bind_eq_ok_iff]
      refine ⟨some d, hd, ?_⟩
      simp only [bind_eq_ok_iff, mapError_eq_ok_iff]
      exact ⟨_, register_of_says ht hq, rfl⟩

/-! ## All visits -/

/-- The visits make of a registry what the terms of some declarations make of it, and come to the same in every registry
of which the terms make the same. -/
theorem exists_adoptAll_visitAll (res : Resolver) (r : Registry) (vs : List Visit) : ∃ ds ts,
    List.Forall₂ Declaration.Says ds ts ∧ r.Admits ts ∧ (r.visitAll res vs).2 = r.adoptAll ts ∧
    ∀ q : Registry, q.Admits ts → q.adoptAll ts = r.adoptAll ts → q.visitAll res vs = r.visitAll res vs := by
  induction vs generalizing r with
  | nil =>
    refine ⟨[], [], .nil, trivial, rfl, ?_⟩
    rintro q - hq
    exact congrArg (fun q : Registry => q.visitAll res []) hq
  | cons v vs ih =>
    cases hv : r.visit res v with
    | error error =>
      -- Nothing is declared any more, so the other registry is this one.
      refine ⟨[], [], .nil, trivial, ?_, ?_⟩
      · simp only [visitAll, hv]
        rfl
      · rintro q - hq
        exact congrArg (fun q : Registry => q.visitAll res (v :: vs)) hq
    | ok p =>
      obtain ⟨key?, r₁⟩ := p
      obtain ⟨ds, ts, hts, ha, hr, hq⟩ := ih r₁
      rcases visit_cases hv with ⟨rfl, hall⟩ | ⟨d, t, ht, hf, rfl, hall⟩
      · refine ⟨ds, ts, hts, ha, ?_, fun q hqa hqr => ?_⟩
        · simp only [visitAll, hv]
          exact hr
        · simp only [visitAll, hall, hq q hqa hqr]
      · refine ⟨d :: ds, t :: ts, .cons ht hts, ⟨hf, ha⟩, ?_, fun q hqa hqr => ?_⟩
        · simp only [visitAll, hv]
          exact hr
        · simp only [visitAll, hv, hall q hqa.1, hq (q.adopt t) hqa.2 hqr]

/-- Discovery leads nowhere that calls do not lead. -/
theorem exists_callAll_discover (r : Registry) (res : Resolver) (o : Owner) :
    ∃ cs, (r.discover res o).2 = r.callAll cs := by
  obtain ⟨ds, ts, hts, ha, hr, -⟩ := exists_adoptAll_visitAll res r o.visits
  refine ⟨ds.map .register, ?_⟩
  rw [callAll_of_registerAll (registerAll_eq_ok_iff.2 ⟨ts, hts, ha, rfl⟩)]
  exact hr

/-- Where discovery was gone through, in whatever registry calls have led to, it comes to the same once more: the same
topics or the same error, and no change. -/
theorem discover_again (cs : List Call) (res : Resolver) (o : Owner) :
    ((empty.callAll cs).discover res o).2.discover res o = (empty.callAll cs).discover res o := by
  obtain ⟨us, -, hu, he⟩ := exists_adoptAll cs
  have hs := sound_empty.callAll cs
  rw [he] at hs ⊢
  obtain ⟨_, ts, -, ha, hr, hagain⟩ := exists_adoptAll_visitAll res (empty.adoptAll us) o.visits
  have hd : ((empty.adoptAll us).discover res o).2 = (empty.adoptAll us).adoptAll ts := hr
  rw [hd]
  apply hagain
  · -- Terms that contradict neither the earlier ones nor each other do not do so when they come twice.
    have htwice : empty.Admits ((us ++ ts) ++ ts) := by
      apply admits_empty_of_subset (admits_append.2 ⟨hu, ha⟩)
      intro t ht
      rcases List.mem_append.1 ht with ht | ht
      · exact ht
      · exact List.mem_append_right us ht
    rw [← adoptAll_append]
    exact (admits_append.1 htwice).2
  · apply adoptAll_again hs.keys
    intro key
    exact (hs.nodup_standing key).2

end PubSub.Registry

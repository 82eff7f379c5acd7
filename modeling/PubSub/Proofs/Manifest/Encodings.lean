import PubSub.Proofs.Value.RoundTrip
/-!
# The two encodings of an entry

An entry is written as it is, with its metadata, or as the mapping that is served, which has no empty metadata. The two
texts are the same exactly if the entry has metadata, and otherwise differ in that one member. The entry is read back
from both (`whole_eq_served_iff`).
-/
namespace PubSub

namespace Json

/-! ## One member more -/

/-- The members after the first stand each after a comma. -/
theorem printMembers_cons (m : Text × Json) (ms : List (Text × Json)) :
    printMembers (m :: ms) = printMembers [m] ++ ms.flatMap fun n => 0x2C :: printMembers [n] := by
  induction ms generalizing m with
  | nil => exact (List.append_nil _).symm
  | cons n ms ih =>
    have he : printMembers (m :: n :: ms) = printMembers [m] ++ 0x2C :: printMembers (n :: ms) := by
      simp [printMembers]
    rw [he, ih n, List.flatMap_cons, List.cons_append]

/-- A member that comes after others is inserted into the text with a comma before it, and nothing else changes. -/
theorem exists_print_insert (first : Text × Json) (front back : List (Text × Json)) :
    ∃ s t, print (.obj (first :: (front ++ back))) = s ++ t ∧
      ∀ m, print (.obj (first :: (front ++ m :: back))) = s ++ 0x2C :: printMembers [m] ++ t := by
  refine ⟨0x7B :: (printMembers [first] ++ front.flatMap fun n => 0x2C :: printMembers [n]),
    (back.flatMap fun n => 0x2C :: printMembers [n]) ++ [0x7D], ?_, fun m => ?_⟩
  · rw [print, printMembers_cons, List.flatMap_append]
    simp
  · rw [print, printMembers_cons, List.flatMap_append, List.flatMap_cons]
    simp

end Json

namespace Manifest

/-- The first text is of an object with the member, the second of the same object without it, and nothing else in the
texts differs. -/
structure DifferOnlyBy (name : Text) (value : Json) (inserted : Text) (whole served : Text) : Prop where
  members : ∃ front back, name ∉ Assoc.keys (front ++ back) ∧
    whole = Json.print (.obj (front ++ (name, value) :: back)) ∧ served = Json.print (.obj (front ++ back))
  texts : ∃ s t, whole = s ++ inserted ++ t ∧ served = s ++ t

theorem DifferOnlyBy.ne {name inserted whole served : Text} {value : Json}
    (h : DifferOnlyBy name value inserted whole served) (hi : inserted ≠ []) : whole ≠ served := by
  obtain ⟨s, t, rfl, rfl⟩ := h.texts
  simpa using hi

/-- The slot of the metadata stands between others, the first of which is set. -/
theorem Entry.exists_slotsWith (e : Entry) : ∃ front back, ∀ metadata?,
    e.slotsWith metadata? = (lit "pubsubname", some (.str e.pubsub)) :: front ++ (lit "metadata", metadata?) :: back :=
  ⟨[_, _, _, _], [_], fun _ => rfl⟩

/-- Empty metadata is one member of the entry as it is, and the others are those of the entry as it is served. -/
theorem Entry.exists_members {e : Entry} (h : e.metadata = []) : ∃ first front back,
    lit "metadata" ∉ Assoc.keys (first :: (front ++ back)) ∧
    e.toJson = .obj (first :: (front ++ (lit "metadata", .obj []) :: back)) ∧
    e.wire = .obj (first :: (front ++ back)) := by
  obtain ⟨front, back, hs⟩ := e.exists_slotsWith
  have hj : metadataJson e.metadata = .obj [] := by
    rw [h]
    rfl
  have hwhole : e.toJson = .obj ((lit "pubsubname", .str e.pubsub) ::
      (Assoc.present front ++ (lit "metadata", .obj []) :: Assoc.present back)) := by
    rw [toJson_eq, hj, hs, Assoc.present_append]
    rfl
  have hserved : e.wire = .obj ((lit "pubsubname", .str e.pubsub) ::
      (Assoc.present front ++ Assoc.present back)) := by
    rw [wire_eq, slots, if_pos h, hs, Assoc.present_append]
    rfl
  refine ⟨_, _, _, ?_, hwhole, hserved⟩
  -- With the member the names are distinct, so it is nowhere else.
  have hk : (Assoc.keys e.members).Nodup := by
    rw [members_eq]
    exact List.Nodup.sublist (Assoc.keys_present_sublist _) e.properNames.1
  rw [Json.obj.inj hwhole, ← List.cons_append, Assoc.keys_append] at hk
  rw [← List.cons_append, Assoc.keys_append]
  exact (List.nodup_cons.1 (List.nodup_middle.1 hk)).1

theorem differOnlyBy_metadata {e : Entry} (h : e.metadata = []) :
    DifferOnlyBy (lit "metadata") (.obj []) (lit ",\"metadata\":\x7b\x7d") e.toJson.print e.wire.print := by
  obtain ⟨first, front, back, hn, hwhole, hserved⟩ := Entry.exists_members h
  obtain ⟨s, t, hst, hinsert⟩ := Json.exists_print_insert first front back
  rw [hwhole, hserved]
  exact ⟨⟨first :: front, back, hn, rfl, rfl⟩, s, t, hinsert _, hst⟩

/-- Written as it is and written as it is served, an entry gives the same text exactly if it has metadata, and else two
texts that differ only by the empty metadata. From either it is read back. -/
theorem whole_eq_served_iff {e : Entry} (h : e.Admitted) (ht : ∀ t ∈ e.texts, Text.Encodable t)
    (hi : ∀ i ∈ e.integers, ¬ Json.IsLong i) :
    ∃ whole served, (Value.entry e).toJsonText = .ok whole ∧ e.wire.toValue.toJsonText = .ok served ∧
      (whole = served ↔ e.metadata ≠ []) ∧
      (e.metadata = [] →
        DifferOnlyBy (lit "metadata") (.obj []) (lit ",\"metadata\":\x7b\x7d") whole served) ∧
      ∀ t ∈ [whole, served], ∃ j, Json.read (.text t) = .ok j ∧ readEntry j.toValue = .ok e := by
  have hnames := Entry.encodable_names ht
  have hwhole : e.toJson.Readable := everywhere_toJson holdsOfFrame_readsBack (fun _ _ => trivial) hi
  have hserved : e.wire.Readable := everywhere_wire holdsOfFrame_readsBack (fun _ _ => trivial) hi
  refine ⟨e.toJson.print, e.wire.print, ?_, Json.toJsonText_toValue hserved.short, ⟨?_, ?_⟩, differOnlyBy_metadata, ?_⟩
  · rw [Value.toJsonText, Value.toJson, Value.writable_of_short hwhole.short]
    rfl
  · intro heq he
    exact (differOnlyBy_metadata he).ne (by decide) heq
  · intro he
    rw [Entry.wire, if_neg he]
  · simp only [List.forall_mem_cons]
    exact ⟨⟨e.toJson, Json.read_print hwhole, readEntry_toJson h hnames⟩,
      ⟨e.wire, Json.read_print hserved, readEntry_wire h hnames⟩, List.forall_mem_nil _⟩

theorem whole_eq_served_iff_routedEntry : Value.routedEntry.Admitted ∧
    (∀ t ∈ Value.routedEntry.texts, Text.Encodable t) ∧ (∀ i ∈ Value.routedEntry.integers, ¬ Json.IsLong i) ∧
    ∃ whole served, (Value.entry Value.routedEntry).toJsonText = .ok whole ∧
      Value.routedEntry.wire.toValue.toJsonText = .ok served ∧
      DifferOnlyBy (lit "metadata") (.obj []) (lit ",\"metadata\":\x7b\x7d") whole served ∧
      ∀ t ∈ [whole, served], ∃ j, Json.read (.text t) = .ok j ∧ readEntry j.toValue = .ok Value.routedEntry := by
  have h : Value.routedEntry.Admitted := rfl
  have ht : ∀ t ∈ Value.routedEntry.texts, Text.Encodable t := by decide
  have hi : ∀ i ∈ Value.routedEntry.integers, ¬ Json.IsLong i := by
    intro i hi
    rw [List.mem_singleton.1 hi]
    exact Json.not_isLong (by decide : 1 ≤ Json.maxDigits) (by decide)
  obtain ⟨whole, served, hw, hs, -, hd, hr⟩ := whole_eq_served_iff h ht hi
  exact ⟨h, ht, hi, whole, served, hw, hs, hd rfl, hr⟩

end Manifest

end PubSub

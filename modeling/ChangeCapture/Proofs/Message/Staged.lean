import ChangeCapture.Proofs.Message.Positions
import Mathlib.Order.Bounds.Basic

/-!
# Summaries in stages

The messages that a flush cannot commit are summarised again with those of the
next flush.  If the messages of each partition are acknowledged in one way, this
is as good as to summarise all of them at once: to record the messages of a
summary brings back the map that it was read off (`PositionMap.recordAll_summary`).

A summary is then canonical (`Message.Canonical`): its positions are told by those
of the messages, in whatever order and in how many stages they were recorded.
-/

namespace ChangeCapture

/-! ## One partition -/

namespace OffsetMap

/-- The messages of a partition that is acknowledged in one way bring back its map. -/
theorem recordAll_values {p : OffsetMap} (aligned : p.Aligned)
    (way : p.Single ∨ ∀ m ∈ p.values, m.ackMode = .everyMessage) :
    p.values.foldl record .empty = p := by
  have offset : ∀ e ∈ p.toList, e.2.offset = e.1 := fun e mem =>
    aligned e.1 e.2 (SortedMap.get?_eq_some_iff.2 mem)
  rcases way with single | every
  · obtain ⟨entries, sorted⟩ := p
    match entries, sorted with
    | [], _ => rfl
    | [e], _ =>
      have there : e.2.offset = e.1 := offset e (List.mem_singleton_self e)
      cases way : e.2.ackMode <;> simp [SortedMap.values, record, way, last?, SortedMap.keys,
        SortedMap.empty, SortedMap.insert, Entries.insert, there]
    | e :: e' :: rest, sorted =>
      have first := SortedMap.get?_eq_some_iff (m := ⟨_, sorted⟩).2 (List.mem_cons_self (a := e))
      have second := SortedMap.get?_eq_some_iff (m := ⟨_, sorted⟩).2
        (List.mem_cons_of_mem e (List.mem_cons_self (a := e') (l := rest)))
      have lt := (List.pairwise_cons.1 sorted).1 e' List.mem_cons_self
      rw [single _ _ _ _ first second] at lt
      exact absurd (lt.symm.trans Std.ReflCmp.compare_self) (by decide)
  · calc p.values.foldl record .empty
        = p.toList.foldl (fun acc e => record acc e.2) .empty := List.foldl_map
      _ = p.toList.foldl (fun acc e => acc.insert e.1 e.2) .empty := by
        refine List.foldl_ext _ _ _ fun acc e mem => ?_
        have way := every e.2 (List.mem_map_of_mem mem)
        simp only [record, way, offset e mem]
      _ = p := SortedMap.ofList_toList p

end OffsetMap

/-! ## All partitions -/

namespace PositionMap

/-- Messages of one partition are recorded there one after the other. -/
theorem recordAll_of_partition {p : Int} {ms : List Message}
    (same : ∀ m ∈ ms, m.partition = p) (filled : ms ≠ []) (ps : PositionMap) :
    ms.foldl record ps = ps.insert p (ms.foldl OffsetMap.record (ps.getD p .empty)) := by
  induction ms generalizing ps with
  | nil => exact absurd rfl filled
  | cons m rest ih =>
    obtain rfl : m.partition = p := same m List.mem_cons_self
    have first : ps.record m =
        ps.insert m.partition ((ps.getD m.partition .empty).record m) := rfl
    by_cases last : rest = []
    · rw [last]
      exact first
    · rw [List.foldl_cons, ih (fun m' mem => same m' (List.mem_cons_of_mem m mem)) last, first,
        SortedMap.insert_insert, SortedMap.getD_insert, if_pos rfl, List.foldl_cons]

/-- Each partition has messages, all of them its own, which bring back its map. -/
structure Restorable (ps : PositionMap) : Prop where
  /-- Each partition has messages. -/
  filled : ∀ p os, ps.get? p = some os → os.values ≠ []
  /-- They are messages of the partition. -/
  partition : ∀ p os, ps.get? p = some os → ∀ m ∈ os.values, m.partition = p
  /-- They bring back its map. -/
  restored : ∀ p os, ps.get? p = some os → os.values.foldl OffsetMap.record .empty = os

theorem Restorable.recordAll_messages {ps : PositionMap} (h : ps.Restorable) :
    ps.messages.foldl record .empty = ps := by
  have steps : ∀ (entries : List (Int × OffsetMap)) (acc : PositionMap),
      (∀ e ∈ entries, ps.get? e.1 = some e.2) → (∀ e ∈ entries, acc.get? e.1 = none) →
      Entries.Sorted entries →
      entries.foldl (fun acc e => e.2.values.foldl record acc) acc = acc.insertMany entries := by
    intro entries
    induction entries with
    | nil =>
      intro acc _ _ _
      rfl
    | cons e rest ih =>
      intro acc known fresh sorted
      have get := known e List.mem_cons_self
      have absent : acc.getD e.1 .empty = .empty := by
        rw [SortedMap.getD, fresh e List.mem_cons_self, Option.getD_none]
      have first : e.2.values.foldl record acc = acc.insert e.1 e.2 := by
        rw [recordAll_of_partition (h.partition e.1 e.2 get) (h.filled e.1 e.2 get), absent,
          h.restored e.1 e.2 get]
      have parts := List.pairwise_cons.1 sorted
      rw [List.foldl_cons, first]
      refine ih _ (fun e' mem => known e' (List.mem_cons_of_mem e mem)) (fun e' mem => ?_) parts.2
      have other : e'.1 ≠ e.1 := by
        intro same
        have lt := parts.1 e' mem
        rw [same] at lt
        exact absurd (lt.symm.trans Std.ReflCmp.compare_self) (by decide)
      rw [SortedMap.get?_insert_of_ne _ _ other]
      exact fresh e' (List.mem_cons_of_mem e mem)
  calc ps.messages.foldl record .empty
      = ps.toList.foldl (fun acc e => e.2.values.foldl record acc) .empty := by
        rw [messages, SortedMap.values, List.flatMap_map, List.foldl_flatMap]
        rfl
    _ = SortedMap.ofList ps.toList :=
      steps ps.toList .empty (fun e mem => SortedMap.get?_eq_some_iff.2 mem)
        (fun e _ => SortedMap.get?_empty e.1) ps.sorted
    _ = ps := SortedMap.ofList_toList ps

/-- A partition is there only if it has a message. -/
theorem exists_of_get? {ms : List Message} {p : Int} {os : OffsetMap}
    (h : (ms.foldl record .empty).get? p = some os) : ∃ m ∈ ms, m.partition = p := by
  induction ms using List.reverseRecOn generalizing os with
  | nil => cases h
  | append_singleton ms m ih =>
    rw [List.foldl_append, List.foldl_cons, List.foldl_nil, get?_record] at h
    by_cases here : p = m.partition
    · exact ⟨m, by simp, here.symm⟩
    · rw [if_neg here] at h
      obtain ⟨m', mem, there⟩ := ih h
      exact ⟨m', List.mem_append_left _ mem, there⟩

open Message in
theorem restorable_of_uniform {ms : List Message} (uniform : Uniform ms) :
    (ms.foldl record .empty).Restorable := by
  have summarises := summarises_summary ms
  have own : ∀ p os, (ms.foldl record .empty).get? p = some os → ∀ m ∈ os.values,
      m ∈ ms ∧ m.partition = p := by
    intro p os get m mem
    obtain ⟨o, at_offset⟩ := SortedMap.mem_values_iff.1 mem
    exact summarises.mem p os o m get at_offset
  refine ⟨fun p os get => ?_, fun p os get m mem => (own p os get m mem).2, fun p os get => ?_⟩
  · obtain ⟨m, mem, rfl⟩ := exists_of_get? get
    obtain ⟨os', get', o, m', at_offset, -⟩ := summarises.reaches m mem
    rw [get] at get'
    obtain rfl := Option.some.inj get'
    exact List.ne_nil_of_mem (SortedMap.mem_values_iff.2 ⟨o, at_offset⟩)
  · obtain ⟨m, mem, rfl⟩ := exists_of_get? get
    refine OffsetMap.recordAll_values (summarises.aligned _ os get) ?_
    cases way : m.ackMode with
    | latestPerPartition =>
      left
      have single := single_of_latest fun x hx part => (uniform x hx m mem part).trans way
      rwa [SortedMap.getD, get, Option.getD_some] at single
    | everyMessage =>
      right
      intro x hx
      obtain ⟨known, part⟩ := own _ os get x hx
      exact (uniform x known m mem part).trans way

/-- To record the messages of a summary brings back the map that it was read off. -/
theorem recordAll_summary {ms : List Message} (uniform : Message.Uniform ms) :
    (Message.summary ms).foldl record .empty = ms.foldl record .empty :=
  (restorable_of_uniform uniform).recordAll_messages

end PositionMap

/-! ## Canonical summaries -/

namespace Message

/-- The messages may be summarised before others join them. -/
theorem summary_summary_append {ms : List Message} (uniform : Uniform ms) (ms' : List Message) :
    summary (summary ms ++ ms') = summary (ms ++ ms') := by
  have recorded := PositionMap.recordAll_summary uniform
  unfold summary at recorded ⊢
  rw [List.foldl_append, List.foldl_append, recorded]

/-- The positions of a summary are told by those of the messages, in whatever order and in how
many stages they were recorded. -/
structure Canonical (ms : List Message) : Prop where
  /-- The positions strictly increase, by partition and then by offset. -/
  increasing : ((summary ms).map position).Pairwise PositionBefore
  /-- A partition that is acknowledged up to an offset has its greatest offset alone. -/
  greatest : ∀ p, (∀ m ∈ ms, m.partition = p → m.ackMode = .latestPerPartition) →
    ∀ o, (p, o) ∈ (summary ms).map position ↔ IsGreatest {o | (p, o) ∈ ms.map position} o
  /-- A partition that is acknowledged message by message has all its offsets. -/
  all : ∀ p, (∀ m ∈ ms, m.partition = p → m.ackMode = .everyMessage) →
    ∀ o, (p, o) ∈ (summary ms).map position ↔ (p, o) ∈ ms.map position
  /-- The order of the messages does not matter. -/
  anyOrder : ∀ ms', ms.Perm ms' → (summary ms').map position = (summary ms).map position
  /-- Nor does it matter whether they are summarised before others join them. -/
  stages : ∀ ms', summary (summary ms ++ ms') = summary (ms ++ ms')

theorem mem_positions_of_latest {ms : List Message} (uniform : Uniform ms) {p : Int}
    (latest : ∀ m ∈ ms, m.partition = p → m.ackMode = .latestPerPartition) (o : Int) :
    (p, o) ∈ (summary ms).map position ↔ IsGreatest {o | (p, o) ∈ ms.map position} o := by
  rw [mem_positions_iff uniform]
  constructor
  · rintro ⟨m, mem, at_place, stands⟩
    obtain ⟨rfl, rfl⟩ := Prod.mk.inj at_place
    refine ⟨List.mem_map.2 ⟨m, mem, rfl⟩, fun o there => ?_⟩
    obtain ⟨m', mem', at_place'⟩ := List.mem_map.1 there
    obtain ⟨part, rfl⟩ := Prod.mk.inj at_place'
    exact stands (latest m mem rfl) m' mem' part
  · rintro ⟨there, top⟩
    obtain ⟨m, mem, at_place⟩ := List.mem_map.1 there
    obtain ⟨rfl, rfl⟩ := Prod.mk.inj at_place
    refine ⟨m, mem, rfl, fun _ m' mem' part => top ?_⟩
    exact List.mem_map.2 ⟨m', mem', Prod.ext part rfl⟩

theorem mem_positions_of_every {ms : List Message} (uniform : Uniform ms) {p : Int}
    (every : ∀ m ∈ ms, m.partition = p → m.ackMode = .everyMessage) (o : Int) :
    (p, o) ∈ (summary ms).map position ↔ (p, o) ∈ ms.map position := by
  rw [mem_positions_iff uniform, List.mem_map]
  constructor
  · rintro ⟨m, mem, same, -⟩
    exact ⟨m, mem, same⟩
  · rintro ⟨m, mem, same⟩
    refine ⟨m, mem, same, fun latest => ?_⟩
    rw [every m mem (congrArg Prod.fst same)] at latest
    cases latest

/-- If each partition is acknowledged in one way, a summary is canonical. -/
theorem canonical_of_uniform {ms : List Message} (uniform : Uniform ms) : Canonical ms where
  increasing := sorted_positions ms
  greatest _ latest := mem_positions_of_latest uniform latest
  all _ every := mem_positions_of_every uniform every
  anyOrder _ same := positions_perm uniform same
  stages := summary_summary_append uniform

/-- A message at a position. -/
def sampleAt (partition offset : Int) (ackMode : AckMode) : Message :=
  ⟨"orders", partition, offset, none, none, offset + 1, false, ackMode⟩

/-- Messages of a partition that is acknowledged up to an offset and of one that is acknowledged
message by message. -/
def sampleMixed : List Message := [
  sampleAt 0 7 .latestPerPartition, sampleAt (-1) 4 .everyMessage,
  sampleAt 0 9 .latestPerPartition, sampleAt (-1) (-2) .everyMessage,
  sampleAt 0 3 .latestPerPartition, sampleAt (-1) 4 .everyMessage]

theorem canonical_sampleMixed :
    Uniform sampleMixed ∧ Canonical sampleMixed ∧
      (summary sampleMixed).map position = [(-1, -2), (-1, 4), (0, 9)] := by
  have uniform : Uniform sampleMixed := by
    unfold Uniform
    decide
  exact ⟨uniform, canonical_of_uniform uniform, by decide⟩

end Message

end ChangeCapture

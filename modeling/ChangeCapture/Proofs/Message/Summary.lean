import ChangeCapture.Message.Summary
import ChangeCapture.Proofs.SortedMap

/-!
# What a summary keeps

The summary of the messages of a topic holds no other messages
(`mem_of_mem_summary`), and each message has one in it of the same partition at
its offset or later (`summary_covers`).  So nothing is lost when messages are
summarised again with later ones.
-/

namespace ChangeCapture

/-- Whether some message of a list stands in the same partition at the offset of `m` or later. -/
def Message.Covered (m : Message) (ms : List Message) : Prop :=
  ∃ m' ∈ ms, m'.partition = m.partition ∧ m.offset ≤ m'.offset

theorem Message.Covered.mono {m : Message} {ms ms' : List Message} (h : m.Covered ms)
    (sub : ∀ x ∈ ms, x ∈ ms') : m.Covered ms' := by
  obtain ⟨m', mem, hp, ho⟩ := h
  exact ⟨m', sub m' mem, hp, ho⟩

/-! ## One partition -/

namespace OffsetMap

theorem le_of_last? {p : OffsetMap} {k o : Int} {m : Message} (hk : p.last? = some k)
    (h : p.get? o = some m) : o ≤ k := by
  have mem : o ∈ p.keys := SortedMap.mem_keys_iff.2 ⟨m, h⟩
  have sorted : p.keys.Pairwise (· < ·) := by
    simp only [SortedMap.keys]
    rw [List.pairwise_map]
    exact p.sorted.imp fun h => Int.compare_eq_lt.1 h
  obtain ⟨l, hl⟩ := List.getLast?_eq_some_iff.1 hk
  rw [hl] at mem sorted
  rcases List.mem_append.1 mem with mem | mem
  · have := (List.pairwise_append.1 sorted).2.2 o mem k (List.mem_singleton_self k)
    omega
  · rw [List.mem_singleton] at mem
    omega

theorem exists_of_last? {p : OffsetMap} {k : Int} (hk : p.last? = some k) :
    ∃ m, p.get? k = some m :=
  SortedMap.mem_keys_iff.1 (List.mem_of_getLast? hk)

/-- The messages of a partition stand under their offsets. -/
def Aligned (p : OffsetMap) : Prop := ∀ o m, p.get? o = some m → m.offset = o

theorem get?_record {p : OffsetMap} {m m' : Message} {o : Int}
    (h : (p.record m).get? o = some m') : (o = m.offset ∧ m' = m) ∨ p.get? o = some m' := by
  unfold record at h
  split at h
  · split at h
    · rw [SortedMap.get?_insert] at h
      split at h
      · exact .inl ⟨‹_›, (Option.some.inj h).symm⟩
      · simp at h
    · exact .inr h
  · rw [SortedMap.get?_insert] at h
    split at h
    · exact .inl ⟨‹_›, (Option.some.inj h).symm⟩
    · exact .inr h

theorem Aligned.record {p : OffsetMap} (h : p.Aligned) (m : Message) : (p.record m).Aligned := by
  intro o m' hm'
  rcases get?_record hm' with ⟨rfl, rfl⟩ | old
  · rfl
  · exact h o m' old

/-- Some message of the partition stands at an offset or after it. -/
def Reaches (p : OffsetMap) (o : Int) : Prop := ∃ o' m, p.get? o' = some m ∧ o ≤ o'

/-- A recorded message is reached, and so is all that was reached before. -/
theorem reaches_record (p : OffsetMap) (m : Message) {o : Int} (h : o = m.offset ∨ p.Reaches o) :
    (p.record m).Reaches o := by
  simp only [record]
  split
  · split
    · rename_i newer
      refine ⟨m.offset, m, SortedMap.get?_insert_self _ _ _, ?_⟩
      rcases h with rfl | ⟨o', m', hm', le⟩
      · exact Int.le_refl _
      · obtain ⟨k, hk⟩ : ∃ k, p.last? = some k := by
          have mem := SortedMap.mem_keys_iff.2 ⟨m', hm'⟩
          exact ⟨_, List.getLast?_eq_some_getLast (List.ne_nil_of_mem mem)⟩
        have := le_of_last? hk hm'
        simp only [hk, Option.all_some, decide_eq_true_eq] at newer
        omega
    · rename_i older
      rcases h with rfl | reached
      · cases hk : p.last? with
        | none => simp [hk] at older
        | some k =>
          obtain ⟨m', hm'⟩ := exists_of_last? hk
          simp only [hk, Option.all_some, decide_eq_true_eq] at older
          exact ⟨k, m', hm', by omega⟩
      · exact reached
  · rcases h with rfl | ⟨o', m', hm', le⟩
    · exact ⟨m.offset, m, SortedMap.get?_insert_self _ _ _, Int.le_refl _⟩
    · by_cases same : o' = m.offset
      · exact ⟨m.offset, m, SortedMap.get?_insert_self _ _ _, by omega⟩
      · exact ⟨o', m', by rw [SortedMap.get?_insert_of_ne _ _ same, hm'], le⟩

end OffsetMap

/-! ## All partitions -/

namespace PositionMap

theorem get?_record (ps : PositionMap) (m : Message) (p : Int) :
    (ps.record m).get? p =
      if p = m.partition then some (((ps.get? m.partition).getD .empty).record m)
      else ps.get? p :=
  SortedMap.get?_alter ps m.partition p _

theorem mem_messages_iff {ps : PositionMap} {m : Message} :
    m ∈ ps.messages ↔ ∃ p os o, ps.get? p = some os ∧ os.get? o = some m := by
  simp only [messages, List.mem_flatMap, SortedMap.mem_values_iff]
  constructor
  · rintro ⟨os, ⟨p, hp⟩, o, ho⟩
    exact ⟨p, os, o, hp, ho⟩
  · rintro ⟨p, os, o, hp, ho⟩
    exact ⟨os, ⟨p, hp⟩, o, ho⟩

/-- What holds of the positions of some messages: each is one of them, stands at its place, and
every one of them is reached. -/
structure Summarises (ps : PositionMap) (ms : List Message) : Prop where
  /-- No other message is there. -/
  mem : ∀ p os o m, ps.get? p = some os → os.get? o = some m → m ∈ ms ∧ m.partition = p
  /-- Each message stands under its offset. -/
  aligned : ∀ p os, ps.get? p = some os → os.Aligned
  /-- Each of the messages is reached. -/
  reaches : ∀ m ∈ ms, ∃ os, ps.get? m.partition = some os ∧ os.Reaches m.offset

theorem summarises_empty : Summarises .empty [] := by
  constructor
  · intro p os o m h
    simp at h
  · intro p os h
    simp at h
  · intro m h
    simp at h

theorem Summarises.record {ps : PositionMap} {ms : List Message} (h : ps.Summarises ms)
    (m : Message) : (ps.record m).Summarises (ms ++ [m]) := by
  have known : ∀ o m', ((ps.get? m.partition).getD .empty).get? o = some m' →
      m' ∈ ms ∧ m'.partition = m.partition := by
    intro o m' hm'
    cases hp : ps.get? m.partition with
    | none => simp [hp] at hm'
    | some os => exact h.mem _ os o m' hp (by simpa [hp] using hm')
  have aligned : ((ps.get? m.partition).getD .empty).Aligned := by
    cases hp : ps.get? m.partition with
    | none =>
      intro o m' hm'
      simp at hm'
    | some os => exact h.aligned _ os hp
  refine ⟨?_, ?_, ?_⟩
  · intro p os o m' hp ho
    rw [get?_record] at hp
    split at hp
    · rename_i hpart
      obtain rfl := Option.some.inj hp
      rcases OffsetMap.get?_record ho with ⟨-, rfl⟩ | old
      · exact ⟨by simp, hpart.symm⟩
      · obtain ⟨mem, part⟩ := known o m' old
        exact ⟨List.mem_append_left _ mem, part.trans hpart.symm⟩
    · obtain ⟨mem, part⟩ := h.mem p os o m' hp ho
      exact ⟨List.mem_append_left _ mem, part⟩
  · intro p os hp
    rw [get?_record] at hp
    split at hp
    · obtain rfl := Option.some.inj hp
      exact aligned.record m
    · exact h.aligned p os hp
  · intro m' mem
    rw [get?_record]
    rcases List.mem_append.1 mem with mem | mem
    · obtain ⟨os, hos, reached⟩ := h.reaches m' mem
      split
      · rename_i hpart
        rw [hpart] at hos
        refine ⟨_, rfl, OffsetMap.reaches_record _ _ (.inr ?_)⟩
        simpa [hos] using reached
      · exact ⟨os, hos, reached⟩
    · obtain rfl := List.mem_singleton.1 mem
      exact ⟨_, if_pos rfl, OffsetMap.reaches_record _ _ (.inl rfl)⟩

theorem Summarises.recordAll {ps : PositionMap} {ms : List Message} (h : ps.Summarises ms)
    (ms' : List Message) : (ms'.foldl PositionMap.record ps).Summarises (ms ++ ms') := by
  induction ms' generalizing ps ms with
  | nil => simpa using h
  | cons m rest ih => simpa using ih (h.record m)

end PositionMap

namespace Message

theorem summarises_summary (ms : List Message) :
    (ms.foldl PositionMap.record .empty).Summarises ms := by
  simpa using PositionMap.summarises_empty.recordAll ms

/-- A summary holds no other messages. -/
theorem mem_of_mem_summary {ms : List Message} {m : Message} (h : m ∈ summary ms) : m ∈ ms := by
  obtain ⟨p, os, o, hp, ho⟩ := PositionMap.mem_messages_iff.1 h
  exact ((summarises_summary ms).mem p os o m hp ho).1

/-- A summary reaches as far in each partition as the messages do. -/
theorem summary_covers {ms : List Message} {m : Message} (h : m ∈ ms) : m.Covered (summary ms) := by
  obtain ⟨os, hos, o, m', hm', le⟩ := (summarises_summary ms).reaches m h
  refine ⟨m', PositionMap.mem_messages_iff.2 ⟨_, os, o, hos, hm'⟩, ?_, ?_⟩
  · exact ((summarises_summary ms).mem _ os o m' hos hm').2
  · rw [(summarises_summary ms).aligned _ os hos o m' hm']
    exact le

theorem Covered.summary {ms : List Message} {m : Message} (h : m.Covered ms) :
    m.Covered (Message.summary ms) := by
  obtain ⟨m', mem, hp, ho⟩ := h
  obtain ⟨m'', mem', hp', ho'⟩ := summary_covers mem
  exact ⟨m'', mem', hp'.trans hp, Int.le_trans ho ho'⟩

end Message

end ChangeCapture

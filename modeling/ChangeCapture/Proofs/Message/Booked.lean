import ChangeCapture.Proofs.Message.Queue
import ChangeCapture.Proofs.Message.Summary
import Mathlib.Data.List.Perm.Subperm

/-!
# Messages in the books

A commit of a message acknowledges the message itself and, in a topic that
acknowledges up to an offset, those before it in its partition
(`Message.Acknowledges`).  The messages of a topic are in the books
(`Message.Booked`) if the books hold no others, none of them twice, and one for
each of them that acknowledges it.

A summary keeps the books (`Booked.summary`), and so does a new message that
takes the place of some of its partition (`Booked.record`).  If each message is
acknowledged alone, the books are the messages themselves in another order
(`Booked.perm_of_alone`).
-/

namespace ChangeCapture

namespace Message

/-! ## Acknowledgement -/

/-- A commit of the first message acknowledges the second one. -/
structure Acknowledges (m m' : Message) : Prop where
  /-- The messages are of one topic. -/
  topic : m.topic = m'.topic
  /-- They are of one partition. -/
  partition : m.partition = m'.partition
  /-- They are acknowledged in one way. -/
  ackMode : m.ackMode = m'.ackMode
  /-- The second message does not stand after the first one. -/
  reaches : m'.offset ≤ m.offset
  /-- If it is acknowledged alone, it is the first one. -/
  alone : m'.ackMode = .everyMessage → m.offset = m'.offset

namespace Acknowledges

theorem refl (m : Message) : m.Acknowledges m := ⟨rfl, rfl, rfl, Int.le_refl _, fun _ => rfl⟩

theorem trans {a b c : Message} (h : a.Acknowledges b) (h' : b.Acknowledges c) :
    a.Acknowledges c where
  topic := h.topic.trans h'.topic
  partition := h.partition.trans h'.partition
  ackMode := h.ackMode.trans h'.ackMode
  reaches := Int.le_trans h'.reaches h.reaches
  alone every := (h.alone (h'.ackMode.trans every)).trans (h'.alone every)

end Acknowledges

/-- The messages are of one topic and are acknowledged in one way. -/
def Alike (topic : String) (mode : AckMode) (ms : List Message) : Prop :=
  ∀ m ∈ ms, m.topic = topic ∧ m.ackMode = mode

theorem Alike.append {topic : String} {mode : AckMode} {ms ms' : List Message}
    (h : Alike topic mode ms) (h' : Alike topic mode ms') : Alike topic mode (ms ++ ms') := by
  intro m mem
  exact (List.mem_append.1 mem).elim (h m) (h' m)

/-- Messages in the order of their offsets stand at different places. -/
theorem nodup_positions {ms : List Message} (h : ms.Pairwise Precedes) :
    (ms.map position).Nodup := by
  unfold List.Nodup
  rw [List.pairwise_map]
  refine h.imp fun {m m'} precedes same => ?_
  obtain ⟨partition, offset⟩ := Prod.mk.inj same
  have := precedes partition
  omega

/-! ## The order of a summary -/

/-- The first message stands before the second one, by partition and then by offset. -/
def Before (m m' : Message) : Prop :=
  m.partition < m'.partition ∨ m.partition = m'.partition ∧ m.offset < m'.offset

theorem Before.position_ne {m m' : Message} (h : m.Before m') : m.position ≠ m'.position := by
  intro same
  obtain ⟨partition, offset⟩ := Prod.mk.inj same
  rcases h with lt | ⟨-, lt⟩ <;> omega

/-- A summary is sorted by partition and then by offset. -/
theorem sorted_summary (ms : List Message) : (summary ms).Pairwise Before := by
  have summarises := summarises_summary ms
  unfold summary
  generalize ms.foldl PositionMap.record .empty = ps at summarises
  have offsets : ∀ e ∈ ps.toList, e.2.values.Pairwise Before := by
    intro e mem
    have get := SortedMap.get?_eq_some_iff.2 mem
    unfold SortedMap.values
    rw [List.pairwise_map]
    refine List.Pairwise.imp_of_mem (fun {x y} hx hy lt => ?_) e.2.sorted
    have getX := SortedMap.get?_eq_some_iff.2 hx
    have getY := SortedMap.get?_eq_some_iff.2 hy
    refine .inr ⟨?_, ?_⟩
    · rw [(summarises.mem _ _ _ _ get getX).2, (summarises.mem _ _ _ _ get getY).2]
    · rw [summarises.aligned _ _ get _ _ getX, summarises.aligned _ _ get _ _ getY]
      exact Int.compare_eq_lt.1 lt
  have partitions : ∀ e ∈ ps.toList, ∀ m ∈ e.2.values, m.partition = e.1 := by
    intro e mem m hm
    obtain ⟨o, get⟩ := SortedMap.mem_values_iff.1 hm
    exact (summarises.mem _ _ _ _ (SortedMap.get?_eq_some_iff.2 mem) get).2
  unfold PositionMap.messages
  rw [List.pairwise_flatMap]
  constructor
  · intro os hos
    obtain ⟨e, mem, rfl⟩ := List.mem_map.1 hos
    exact offsets e mem
  · unfold SortedMap.values
    rw [List.pairwise_map]
    refine List.Pairwise.imp_of_mem (fun {x y} hx hy lt m hm m' hm' => .inl ?_) ps.sorted
    rw [partitions x hx m hm, partitions y hy m' hm']
    exact Int.compare_eq_lt.1 lt

theorem nodup_summary (ms : List Message) : (summary ms).Nodup :=
  (sorted_summary ms).imp fun before same => before.position_ne (congrArg position same)

theorem subperm_summary (ms : List Message) : (summary ms).Subperm ms :=
  (nodup_summary ms).subperm fun _ => mem_of_mem_summary

end Message

/-! ## What a summary acknowledges -/

namespace PositionMap

/-- A message stands at the position of `m`. -/
def Has (ps : PositionMap) (m : Message) : Prop :=
  ∃ os m', ps.get? m.partition = some os ∧ os.get? m.offset = some m'

theorem has_record_self (ps : PositionMap) {m : Message} (every : m.ackMode = .everyMessage) :
    (ps.record m).Has m := by
  refine ⟨_, m, (get?_record ps m _).trans (if_pos rfl), ?_⟩
  simp only [OffsetMap.record, every]
  exact SortedMap.get?_insert_self _ _ _

theorem Has.record {ps : PositionMap} {x : Message} (h : ps.Has x) {m : Message}
    (every : m.partition = x.partition → m.ackMode = .everyMessage) : (ps.record m).Has x := by
  obtain ⟨os, m', partition, offset⟩ := h
  by_cases same : x.partition = m.partition
  · have get : (ps.record m).get? x.partition = some (os.record m) := by
      rw [get?_record, if_pos same, ← same, partition, Option.getD_some]
    simp only [OffsetMap.record, every same.symm] at get
    by_cases at_offset : x.offset = m.offset
    · exact ⟨_, m, get, by rw [at_offset, SortedMap.get?_insert_self]⟩
    · exact ⟨_, m', get, by rw [SortedMap.get?_insert_of_ne _ _ at_offset, offset]⟩
  · exact ⟨os, m', by rw [get?_record, if_neg same, partition], offset⟩

theorem has_recordAll {ms : List Message} {x : Message}
    (every : ∀ m ∈ ms, m.partition = x.partition → m.ackMode = .everyMessage)
    (ps : PositionMap) (h : x ∈ ms ∨ ps.Has x) : (ms.foldl PositionMap.record ps).Has x := by
  induction ms generalizing ps with
  | nil => exact h.resolve_left List.not_mem_nil
  | cons m rest ih =>
    have first := every m List.mem_cons_self
    refine ih (fun m' mem => every m' (List.mem_cons_of_mem m mem)) _ ?_
    rcases h with mem | has
    · rcases List.mem_cons.1 mem with rfl | mem
      · exact .inr (has_record_self ps (first rfl))
      · exact .inl mem
    · exact .inr (has.record first)

end PositionMap

namespace Message

/-- If each message of a partition is acknowledged alone, a summary has one at the position of
each. -/
theorem exists_position_summary {ms : List Message} {m : Message}
    (every : ∀ x ∈ ms, x.partition = m.partition → x.ackMode = .everyMessage) (mem : m ∈ ms) :
    ∃ m' ∈ summary ms, m'.position = m.position := by
  obtain ⟨os, m', partition, offset⟩ := PositionMap.has_recordAll every .empty (.inl mem)
  have summarises := summarises_summary ms
  refine ⟨m', PositionMap.mem_messages_iff.2 ⟨_, os, _, partition, offset⟩, ?_⟩
  unfold position
  rw [(summarises.mem _ os _ m' partition offset).2, summarises.aligned _ os partition _ m' offset]

/-- Each message of a topic is acknowledged by one of the summary. -/
theorem acknowledges_summary {topic : String} {mode : AckMode} {ms : List Message}
    (alike : Alike topic mode ms) {m : Message} (mem : m ∈ ms) :
    ∃ m' ∈ summary ms, m'.Acknowledges m := by
  have same : ∀ {m'}, m' ∈ summary ms → m'.topic = m.topic ∧ m'.ackMode = m.ackMode := by
    intro m' mem'
    obtain ⟨topic', mode'⟩ := alike m' (mem_of_mem_summary mem')
    exact ⟨topic'.trans (alike m mem).1.symm, mode'.trans (alike m mem).2.symm⟩
  cases hm : m.ackMode with
  | latestPerPartition =>
    obtain ⟨m', mem', partition, le⟩ := summary_covers mem
    refine ⟨m', mem', (same mem').1, partition, (same mem').2, le, fun every => ?_⟩
    rw [hm] at every
    cases every
  | everyMessage =>
    have every : ∀ x ∈ ms, x.partition = m.partition → x.ackMode = .everyMessage := fun x hx _ =>
      (alike x hx).2.trans ((alike m mem).2.symm.trans hm)
    obtain ⟨m', mem', position⟩ := exists_position_summary every mem
    obtain ⟨partition, offset⟩ := Prod.mk.inj position
    exact ⟨m', mem', (same mem').1, partition, (same mem').2, Int.le_of_eq offset.symm,
      fun _ => offset⟩

/-! ## Books -/

/-- The messages are in the books. -/
structure Booked (ms books : List Message) : Prop where
  /-- The books hold no other messages, and none twice. -/
  known : books.Subperm ms
  /-- Each message is acknowledged by one in the books. -/
  acknowledged : ∀ m ∈ ms, ∃ b ∈ books, b.Acknowledges m

namespace Booked

variable {ms books books' : List Message}

theorem nil : Booked [] [] := ⟨.refl _, nofun⟩

theorem perm (h : Booked ms books) (same : books.Perm books') : Booked ms books' where
  known := same.subperm_right.1 h.known
  acknowledged m mem := by
    obtain ⟨b, hb, acknowledges⟩ := h.acknowledged m mem
    exact ⟨b, same.subset hb, acknowledges⟩

/-- Some of the messages in the books may be summarised. -/
theorem summary {topic : String} {mode : AckMode} (alike : Alike topic mode ms)
    {xs ys : List Message} (h : Booked ms (xs ++ ys)) : Booked ms (Message.summary xs ++ ys) where
  known := ((List.subperm_append_right ys).2 (subperm_summary xs)).trans h.known
  acknowledged m mem := by
    have alike : Alike topic mode xs := fun x hx =>
      alike x (h.known.subset (List.mem_append_left ys hx))
    obtain ⟨b, hb, acknowledges⟩ := h.acknowledged m mem
    rcases List.mem_append.1 hb with hb | hb
    · obtain ⟨b', hb', acknowledges'⟩ := acknowledges_summary alike hb
      exact ⟨b', List.mem_append_left ys hb', acknowledges'.trans acknowledges⟩
    · exact ⟨b, List.mem_append_right _ hb, acknowledges⟩

/-- A new message enters the books.  In a topic that acknowledges up to an offset it may take the
place of messages that stand before it in its partition. -/
theorem record {topic : String} {mode : AckMode} {m : Message} {dropped kept : List Message}
    (h : Booked ms (dropped ++ kept)) (alike : Alike topic mode (ms ++ [m]))
    (last : ∀ x ∈ ms, x.Precedes m)
    (replaced : ∀ x ∈ dropped, m.ackMode = .latestPerPartition ∧ x.partition = m.partition) :
    Booked (ms ++ [m]) (m :: kept) where
  known := by
    have kept_ms : kept.Subperm ms := (List.sublist_append_right dropped kept).subperm.trans h.known
    exact ((List.subperm_cons m).2 kept_ms).trans (List.perm_append_singleton m ms).symm.subperm
  acknowledged x mem := by
    rcases List.mem_append.1 mem with mem | mem
    · obtain ⟨b, hb, acknowledges⟩ := h.acknowledged x mem
      rcases List.mem_append.1 hb with hb | hb
      · refine ⟨m, List.mem_cons_self, Acknowledges.trans ?_ acknowledges⟩
        have known := h.known.subset (List.mem_append_left kept hb)
        obtain ⟨topic, mode⟩ := alike m (by simp)
        obtain ⟨topic', mode'⟩ := alike b (List.mem_append_left _ known)
        obtain ⟨latest, partition⟩ := replaced b hb
        have modes := mode.trans mode'.symm
        refine ⟨topic.trans topic'.symm, partition.symm, modes, ?_, fun every => ?_⟩
        · exact Int.le_of_lt (last b known partition)
        · rw [← modes, latest] at every
          cases every
      · exact ⟨b, List.mem_cons_of_mem m hb, acknowledges⟩
    · rw [List.mem_singleton.1 mem]
      exact ⟨m, List.mem_cons_self, .refl m⟩

/-- If each message is acknowledged alone, the books hold all of them. -/
theorem perm_of_alone {topic : String} (alike : Alike topic .everyMessage ms)
    (ordered : ms.Pairwise Precedes) (h : Booked ms books) : books.Perm ms := by
  have distinct := nodup_positions ordered
  have all : ms ⊆ books := by
    intro m mem
    obtain ⟨b, hb, acknowledges⟩ := h.acknowledged m mem
    have same : b.position = m.position :=
      Prod.ext acknowledges.partition (acknowledges.alone (alike m mem).2)
    rwa [← List.inj_on_of_nodup_map distinct (h.known.subset hb) mem same]
  exact h.known.antisymm ((List.Nodup.of_map _ distinct).subperm all)

end Booked

end Message

/-! ## The messages of a queue -/

namespace MessageQueue

/-- The queue gives the messages of a topic in order, all of one kind. -/
structure Gives (q : MessageQueue) (topic : String) (mode : AckMode) (taken : List Message) :
    Prop where
  /-- The queue is that of the topic. -/
  named : q.topic = topic
  /-- Its messages are acknowledged in one way. -/
  acknowledged : q.ackMode = mode
  /-- They are of the topic. -/
  alike : Message.Alike topic mode (taken ++ q.pending)
  /-- They come in order. -/
  ordered : q.Ordered taken

namespace Gives

variable {q q' : MessageQueue} {topic : String} {mode : AckMode} {taken : List Message}

theorem new (topic : String) (mode : AckMode) : (new topic mode).Gives topic mode [] :=
  ⟨rfl, rfl, nofun, ordered_new topic mode⟩

theorem push (h : q.Gives topic mode taken) (partition : Int) (key value : Option ByteArray) :
    (q.push partition key value).Gives topic mode taken := by
  refine ⟨h.named, h.acknowledged, ?_, h.ordered.push partition key value⟩
  show Message.Alike topic mode (taken ++ (q.pending ++ [q.nextMessage partition key value]))
  rw [← List.append_assoc]
  refine h.alike.append fun m mem => ?_
  rw [List.mem_singleton.1 mem]
  exact ⟨h.named, h.acknowledged⟩

/-- A message that was read is one of those that were taken. -/
theorem take (h : q.Gives topic mode taken) {m : Message} (read : q.read = (.message m, q')) :
    q'.Gives topic mode (taken ++ [m]) := by
  obtain ⟨first, rest, pending, rfl, rfl⟩ := read_message read
  refine ⟨h.named, h.acknowledged, ?_, h.ordered.take read⟩
  have alike : Message.Alike topic mode (taken ++ first :: rest) := pending ▸ h.alike
  intro m mem
  rw [List.append_assoc, List.singleton_append, List.mem_append, List.mem_cons] at mem
  rcases mem with mem | rfl | mem
  · exact alike m (List.mem_append_left _ mem)
  · exact alike first (List.mem_append_right _ List.mem_cons_self)
  · exact alike m (List.mem_append_right _ (List.mem_cons_of_mem _ mem))

/-- A message may be left out of those that were taken. -/
theorem sublist (h : q.Gives topic mode taken) {taken' : List Message}
    (sub : taken'.Sublist taken) : q.Gives topic mode taken' :=
  ⟨h.named, h.acknowledged, fun m mem => h.alike m ((sub.append_right q.pending).subset mem),
    h.ordered.sublist sub⟩

theorem commit (h : q.Gives topic mode taken) (ms : List Message) :
    (q.commit ms).Gives topic mode taken :=
  ⟨h.named, h.acknowledged, h.alike, h.ordered.of_frame rfl rfl⟩

theorem alike_taken (h : q.Gives topic mode taken) : Message.Alike topic mode taken :=
  fun m mem => h.alike m (List.mem_append_left _ mem)

end Gives

end MessageQueue

end ChangeCapture

import ChangeCapture.Proofs.Message.Queue
import Mathlib.Data.List.Induction

/-!
# A queue is a log

Whatever is done with a queue, what was read and what is pending are together what
was pushed, in the same order (`MessageQueue.Sound`).  So the messages of a partition
are counted from zero, the lag of a message that is read is the number of messages
that still wait behind it, and the committed offset of a partition is the greatest
one that was ever committed there (`MessageQueue.keeps_log`).
-/

namespace ChangeCapture

namespace Message

/-- A message as it was before it was read.  Reading it only moves its mark. -/
def unread (m : Message) : Message := { m with highWaterMark := m.offset + 1 }

/-- The messages of a partition. -/
def inPartition (p : Int) (ms : List Message) : List Message := ms.filter fun m => m.partition = p

theorem inPartition_concat (p : Int) (ms : List Message) (m : Message) :
    inPartition p (ms ++ [m]) = inPartition p ms ++ if m.partition = p then [m] else [] := by
  by_cases same : m.partition = p <;> simp [inPartition, same]

end Message

namespace MessageQueue

open Message

/-! ## Uses -/

/-- What is done with a queue. -/
inductive Use where
  /-- A message is pushed. -/
  | push (partition : Int) (key value : Option ByteArray)
  /-- A message is asked for. -/
  | read
  /-- Messages are committed. -/
  | commit (ms : List Message)
  /-- The queue is closed. -/
  | close

/-- The partition, the key and the value that are pushed. -/
def Use.pushed? : Use → Option (Int × Option ByteArray × Option ByteArray)
  | push partition key value => some (partition, key, value)
  | _ => none

/-- The messages that are committed. -/
def Use.committed : Use → List Message
  | commit ms => ms
  | _ => []

/-- A queue with what came of its uses. -/
structure History where
  /-- The queue. -/
  queue : MessageQueue
  /-- The messages that were pushed, as the queue took them in. -/
  pushed : List Message
  /-- The messages that were read, as the queue gave them out. -/
  taken : List Message

/-- One more use of a queue. -/
def History.step (h : History) : Use → History
  | .push partition key value =>
    ⟨h.queue.push partition key value, h.pushed ++ [h.queue.nextMessage partition key value],
      h.taken⟩
  | .read =>
    match h.queue.read with
    | (.message m, q) => ⟨q, h.pushed, h.taken ++ [m]⟩
    | (_, q) => ⟨q, h.pushed, h.taken⟩
  | .commit ms => ⟨h.queue.commit ms, h.pushed, h.taken⟩
  | .close => ⟨h.queue.close, h.pushed, h.taken⟩

/-- A read ends if the queue is closed and nothing is pending, and only then. -/
theorem read_closed_iff {q : MessageQueue} : q.read.1 = .closed ↔ q.isClosed ∧ q.pending = [] := by
  unfold MessageQueue.read
  cases q.pending with
  | nil => cases q.isClosed <;> simp
  | cons m rest => simp

/-- A read waits if the queue is open and nothing is pending, and only then. -/
theorem read_waiting_iff {q : MessageQueue} :
    q.read.1 = .waiting ↔ ¬ q.isClosed ∧ q.pending = [] := by
  unfold MessageQueue.read
  cases q.pending with
  | nil => cases q.isClosed <;> simp
  | cons m rest => simp

/-- A read gives a message, or it changes nothing. -/
theorem History.step_read (h : History) :
    (∃ m q, h.queue.read = (.message m, q) ∧ h.step .read = ⟨q, h.pushed, h.taken ++ [m]⟩) ∨
      h.step .read = h := by
  simp only [step]
  split
  · rename_i m q read
    exact .inl ⟨m, q, read, rfl⟩
  · rename_i arrival q none read
    have stays : q = h.queue := by
      simpa [read] using read_none (q := h.queue) (by simpa [read] using none)
    exact .inr (by rw [stays])

/-- The queue of a topic after its uses. -/
def history (topic : String) (mode : AckMode) (uses : List Use) : History :=
  uses.foldl History.step ⟨new topic mode, [], []⟩

/-- One message for each push is what was read and what is pending, the messages of a partition are
counted, and commits are kept as a maximum. -/
structure KeepsLog (topic : String) (mode : AckMode) (uses : List Use) : Prop where
  /-- Every push adds a message with what it was given. -/
  pushed : (history topic mode uses).pushed.map (fun m => (m.partition, m.key, m.value)) =
    uses.filterMap Use.pushed?
  /-- The messages of a partition have the offsets 0, 1, 2 and so on. -/
  offsets : ∀ p, (inPartition p (history topic mode uses).pushed).map Message.offset =
    (List.range (inPartition p (history topic mode uses).pushed).length).map Int.ofNat
  /-- What was read and what is pending are what was pushed. -/
  order : (history topic mode uses).taken.map unread ++ (history topic mode uses).queue.pending =
    (history topic mode uses).pushed
  /-- A read ends if the queue was closed and nothing is pending, and only then. -/
  closed : (history topic mode uses).queue.read.1 = .closed ↔
    Use.close ∈ uses ∧ (history topic mode uses).queue.pending = []
  /-- A read waits if the queue was not closed and nothing is pending, and only then. -/
  waiting : (history topic mode uses).queue.read.1 = .waiting ↔
    Use.close ∉ uses ∧ (history topic mode uses).queue.pending = []
  /-- The lag of a message that is read counts the messages of its partition behind it. -/
  lag : ∀ m q, (history topic mode uses).queue.read = (.message m, q) →
    m.lag = (inPartition m.partition q.pending).length
  /-- The committed offset of a partition is the greatest of those that were committed. -/
  committed : ∀ p, (history topic mode uses).queue.committed.get? p =
    ((inPartition p (uses.flatMap Use.committed)).map Message.offset).max?
  /-- It never decreases. -/
  rises : ∀ more p offset, (history topic mode uses).queue.committed.get? p = some offset →
    ∃ later, (history topic mode (uses ++ more)).queue.committed.get? p = some later ∧
      offset ≤ later

/-! ## The invariant -/

/-- What was read and what is pending are what was pushed, and each partition is counted. -/
structure Sound (h : History) : Prop where
  /-- What was read and what is pending are what was pushed. -/
  order : h.taken.map unread ++ h.queue.pending = h.pushed
  /-- No pushed message knows of a later one. -/
  marks : ∀ m ∈ h.pushed, m.unread = m
  /-- The messages of a partition have the offsets 0, 1, 2 and so on. -/
  offsets : ∀ p, (inPartition p h.pushed).map Message.offset =
    (List.range (inPartition p h.pushed).length).map Int.ofNat
  /-- The next offset of a partition is the number of its messages. -/
  next : ∀ p, h.queue.nextOffset p = (inPartition p h.pushed).length

namespace Sound

variable {h : History}

theorem new (topic : String) (mode : AckMode) : Sound ⟨.new topic mode, [], []⟩ where
  order := rfl
  marks := nofun
  offsets _ := rfl
  next _ := rfl

theorem push (sound : Sound h) (partition : Int) (key value : Option ByteArray) :
    Sound (h.step (.push partition key value)) where
  order := by
    show h.taken.map unread ++ (h.queue.pending ++ [_]) = h.pushed ++ [_]
    rw [← List.append_assoc, sound.order]
  marks m mem := by
    rcases List.mem_append.1 mem with mem | mem
    · exact sound.marks m mem
    · rw [List.mem_singleton.1 mem]
      rfl
  offsets p := by
    have told : (h.step (.push partition key value)).pushed =
      h.pushed ++ [h.queue.nextMessage partition key value] := rfl
    rw [told, inPartition_concat, List.map_append, sound.offsets]
    split
    · rename_i same
      have last : (h.queue.nextMessage partition key value).offset =
        Int.ofNat (inPartition p h.pushed).length := same ▸ sound.next partition
      rw [List.length_append, List.length_singleton, List.range_succ, List.map_append,
        List.map_singleton, List.map_singleton, last]
    · simp
  next p := by
    show (h.queue.push partition key value).nextOffset p =
      (inPartition p (h.pushed ++ [h.queue.nextMessage partition key value])).length
    rw [nextOffset_push, inPartition_concat, List.length_append, Int.natCast_add, ← sound.next]
    by_cases same : p = partition
    · simp [same, nextMessage]
    · simp [same, Ne.symm same, nextMessage]

/-- The partition of a message that was pushed has a next offset. -/
theorem highWaterMark_stamped (sound : Sound h) {m : Message} (mem : m ∈ h.pushed) :
    (h.queue.stamped m).highWaterMark = (inPartition m.partition h.pushed).length := by
  have listed : m ∈ inPartition m.partition h.pushed := List.mem_filter.2 ⟨mem, by simp⟩
  have positive := List.length_pos_of_mem listed
  have next := sound.next m.partition
  simp only [stamped, nextOffset, SortedMap.getD] at next ⊢
  cases known : h.queue.nextOffsets.get? m.partition with
  | none =>
    rw [known, Option.getD_none] at next
    omega
  | some o => simpa [known] using next

/-- The offset of a message is the number of messages of its partition before it. -/
theorem offset_eq (sound : Sound h) {m : Message} {before after : List Message}
    (split : h.pushed = before ++ m :: after) :
    m.offset = (inPartition m.partition before).length := by
  have listed : inPartition m.partition h.pushed =
      inPartition m.partition before ++ m :: inPartition m.partition after := by
    simp [inPartition, split]
  have counted := congrArg (·[(inPartition m.partition before).length]?)
    (sound.offsets m.partition)
  simpa [listed] using counted

/-- A read that finds a message takes the first one that is pending. -/
theorem take (sound : Sound h) {m : Message} {q : MessageQueue}
    (read : h.queue.read = (.message m, q)) : Sound ⟨q, h.pushed, h.taken ++ [m]⟩ := by
  obtain ⟨first, rest, pending, rfl, rfl⟩ := read_message read
  have order : h.taken.map unread ++ first :: rest = h.pushed := by rw [← pending, sound.order]
  have same : (h.queue.stamped first).unread = first := sound.marks first (by simp [← order])
  exact ⟨by simp [← order, same], sound.marks, sound.offsets, sound.next⟩

/-- The lag of a message that is read is the number of messages of its partition behind it. -/
theorem lag (sound : Sound h) {m : Message} {q : MessageQueue}
    (read : h.queue.read = (.message m, q)) :
    m.lag = (inPartition m.partition q.pending).length := by
  obtain ⟨first, rest, pending, rfl, rfl⟩ := read_message read
  have order : h.pushed = h.taken.map unread ++ first :: rest := by rw [← sound.order, pending]
  have mark := sound.highWaterMark_stamped (m := first) (by simp [order])
  have offset := sound.offset_eq order
  have listed : inPartition first.partition h.pushed =
      inPartition first.partition (h.taken.map unread) ++
        first :: inPartition first.partition rest := by
    simp [inPartition, order]
  show max ((h.queue.stamped first).highWaterMark - first.offset - 1) 0 =
    ((inPartition first.partition rest).length : Int)
  rw [mark, offset, listed, List.length_append, List.length_cons]
  omega

theorem step (sound : Sound h) (use : Use) : Sound (h.step use) := by
  cases use with
  | push partition key value => exact sound.push partition key value
  | read =>
    obtain ⟨m, q, read, stepped⟩ | stays := h.step_read
    · rw [stepped]
      exact sound.take read
    · rwa [stays]
  | commit ms => exact ⟨sound.order, sound.marks, sound.offsets, sound.next⟩
  | close => exact ⟨sound.order, sound.marks, sound.offsets, sound.next⟩

end Sound

/-- What uses leave in a queue, reads aside. -/
structure Recorded (uses : List Use) (h : History) : Prop where
  /-- Every push adds a message with what it was given. -/
  pushed : h.pushed.map (fun m => (m.partition, m.key, m.value)) = uses.filterMap Use.pushed?
  /-- The queue is closed if one of them closed it. -/
  closed : h.queue.isClosed ↔ Use.close ∈ uses
  /-- Commits are kept. -/
  commits : h.queue.commits.flatten = uses.flatMap Use.committed
  /-- The greatest offset of each partition is kept. -/
  marks : Marks h.queue.committed h.queue.commits.flatten

namespace Recorded

variable {uses : List Use} {h : History}

theorem new (topic : String) (mode : AckMode) : Recorded [] ⟨.new topic mode, [], []⟩ where
  pushed := rfl
  closed := by simp [MessageQueue.new]
  commits := rfl
  marks := marks_empty

theorem step (recorded : Recorded uses h) (use : Use) : Recorded (uses ++ [use]) (h.step use) := by
  obtain ⟨pushed, closed, commits, marks⟩ := recorded
  cases use with
  | push partition key value =>
    exact ⟨by simp [← pushed, History.step, nextMessage, Use.pushed?],
      by simp [← closed, History.step, MessageQueue.push],
      by simp [← commits, History.step, MessageQueue.push, Use.committed], marks⟩
  | read =>
    have same : Recorded (uses ++ [.read]) h :=
      ⟨by simp [pushed, Use.pushed?], by simp [closed], by simp [commits, Use.committed], marks⟩
    obtain ⟨m, q, read, stepped⟩ | stays := h.step_read
    · rw [stepped]
      obtain ⟨first, rest, -, -, rfl⟩ := read_message read
      exact ⟨same.pushed, same.closed, same.commits, same.marks⟩
    · rwa [stays]
  | commit ms =>
    exact ⟨by simp [← pushed, History.step, Use.pushed?],
      by simp [← closed, History.step, MessageQueue.commit],
      by simp [← commits, History.step, MessageQueue.commit, Use.committed], marks.commit ms⟩
  | close =>
    exact ⟨by simp [← pushed, History.step, Use.pushed?],
      by simp [History.step, MessageQueue.close],
      by simp [← commits, History.step, MessageQueue.close, Use.committed], marks⟩

end Recorded

/-! ## Runs -/

/-- What each use keeps, any uses keep. -/
theorem history_induct {P : List Use → History → Prop} {topic : String} {mode : AckMode}
    (start : P [] ⟨.new topic mode, [], []⟩)
    (step : ∀ {uses h} use, P uses h → P (uses ++ [use]) (h.step use)) (uses : List Use) :
    P uses (history topic mode uses) := by
  induction uses using List.reverseRecOn with
  | nil => exact start
  | append_singleton uses use ih =>
    rw [history, List.foldl_append]
    exact step use ih

theorem sound_history (topic : String) (mode : AckMode) (uses : List Use) :
    Sound (history topic mode uses) :=
  history_induct (P := fun _ h => Sound h) (.new topic mode) (fun use sound => sound.step use) uses

theorem recorded_history (topic : String) (mode : AckMode) (uses : List Use) :
    Recorded uses (history topic mode uses) :=
  history_induct (.new topic mode) (fun use recorded => recorded.step use) uses

/-- The greatest offset of a partition is the maximum of its offsets. -/
theorem Marks.get?_eq_max? {committed : SortedMap Int Int} {ms : List Message}
    (h : Marks committed ms) (p : Int) :
    committed.get? p = ((inPartition p ms).map Message.offset).max? := by
  have hp := h p
  cases hc : committed.get? p with
  | none =>
    simp only [hc] at hp
    have empty : inPartition p ms = [] :=
      List.filter_eq_nil_iff.2 fun m mem => by simpa using hp m mem
    rw [empty]
    rfl
  | some o =>
    simp only [hc] at hp
    obtain ⟨⟨m, mem, same, rfl⟩, greatest⟩ := hp
    symm
    rw [List.max?_eq_some_iff]
    refine ⟨List.mem_map_of_mem (List.mem_filter.2 ⟨mem, by simpa using same⟩), fun o mem => ?_⟩
    obtain ⟨m', listed, rfl⟩ := List.mem_map.1 mem
    obtain ⟨mem', same'⟩ := List.mem_filter.1 listed
    exact greatest m' mem' (by simpa using same')

/-- A greatest offset does not decrease when more is committed. -/
theorem Marks.rises {committed committed' : SortedMap Int Int} {ms more : List Message}
    (h : Marks committed ms) (h' : Marks committed' (ms ++ more)) {p o : Int}
    (known : committed.get? p = some o) : ∃ o', committed'.get? p = some o' ∧ o ≤ o' := by
  have hp := h p
  have hp' := h' p
  simp only [known] at hp
  obtain ⟨⟨m, mem, same, rfl⟩, -⟩ := hp
  cases hc : committed'.get? p with
  | none =>
    simp only [hc] at hp'
    exact absurd same (hp' m (List.mem_append_left more mem))
  | some o' =>
    simp only [hc] at hp'
    exact ⟨o', rfl, hp'.2 m (List.mem_append_left more mem) same⟩

/-- Whatever is done with a queue, it is a log of what was pushed. -/
theorem keeps_log (topic : String) (mode : AckMode) (uses : List Use) :
    KeepsLog topic mode uses := by
  have sound := sound_history topic mode uses
  have recorded := recorded_history topic mode uses
  refine ⟨recorded.pushed, sound.offsets, sound.order, ?_, ?_, fun m q read => sound.lag read,
    fun p => ?_, fun more p o known => ?_⟩
  · rw [← recorded.closed]
    exact read_closed_iff
  · rw [← recorded.closed]
    exact read_waiting_iff
  · rw [recorded.marks.get?_eq_max?, recorded.commits]
  · have later := recorded_history topic mode (uses ++ more)
    have marks := recorded.marks
    have marks' := later.marks
    rw [later.commits, List.flatMap_append, ← recorded.commits] at marks'
    exact marks.rises marks' known

end MessageQueue

end ChangeCapture

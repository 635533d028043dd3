import ChangeCapture.Message.Queue
import ChangeCapture.Proofs.SortedMap

/-!
# The order of a queue

A queue gives out the messages of a partition in the order of their offsets
(`MessageQueue.Ordered`).  The committed offset of a partition is the greatest
one that was ever committed there (`MessageQueue.Marks`).
-/

namespace ChangeCapture

/-- If the messages share a partition, the first one stands before the second one. -/
def Message.Precedes (m m' : Message) : Prop := m.partition = m'.partition → m.offset < m'.offset

namespace MessageQueue

/-! ## Offsets -/

/-- Messages that were read and those that were not stand in the order of their offsets, and the
next offset of a partition is greater than all of them. -/
structure Ordered (q : MessageQueue) (taken : List Message) : Prop where
  /-- The messages stand in the order of their offsets. -/
  increasing : (taken ++ q.pending).Pairwise Message.Precedes
  /-- The next offset is greater. -/
  bounded : ∀ m ∈ taken ++ q.pending, m.offset < q.nextOffset m.partition

/-- The messages that were read stand in the order of their offsets. -/
theorem Ordered.line {q : MessageQueue} {taken : List Message} (h : q.Ordered taken) :
    taken.Pairwise Message.Precedes :=
  (List.pairwise_append.1 h.increasing).1

theorem Ordered.precedes {q : MessageQueue} {taken later : List Message}
    (h : q.Ordered (taken ++ later)) {m m' : Message} (mem : m ∈ taken) (mem' : m' ∈ later) :
    m.Precedes m' :=
  (List.pairwise_append.1 h.line).2.2 m mem m' mem'

theorem ordered_new (topic : String) (mode : AckMode) : (new topic mode).Ordered [] := by
  constructor
  · exact List.Pairwise.nil
  · intro m mem
    cases mem

theorem nextOffset_push (q : MessageQueue) (partition : Int) (key value : Option ByteArray)
    (p : Int) :
    (q.push partition key value).nextOffset p =
      if p = partition then q.nextOffset partition + 1 else q.nextOffset p :=
  SortedMap.getD_insert q.nextOffsets partition p _ 0

theorem Ordered.push {q : MessageQueue} {taken : List Message} (h : q.Ordered taken)
    (partition : Int) (key value : Option ByteArray) :
    (q.push partition key value).Ordered taken := by
  constructor
  · have last : ∀ m ∈ taken ++ q.pending, m.Precedes (q.nextMessage partition key value) := by
      intro m mem same
      have := h.bounded m mem
      rwa [same] at this
    show (taken ++ (q.pending ++ [q.nextMessage partition key value])).Pairwise _
    rw [← List.append_assoc, List.pairwise_append]
    refine ⟨h.increasing, List.pairwise_singleton _ _, ?_⟩
    intro m mem m' mem'
    rw [List.mem_singleton] at mem'
    rw [mem']
    exact last m mem
  · intro m mem
    have mem : m ∈ (taken ++ q.pending) ++ [q.nextMessage partition key value] := by
      rwa [List.append_assoc]
    rw [nextOffset_push]
    rcases List.mem_append.1 mem with mem | mem
    · have := h.bounded m mem
      split
      · rename_i same
        rw [same] at this
        omega
      · exact this
    · rw [List.mem_singleton] at mem
      rw [mem]
      simp only [nextMessage, if_true]
      omega

theorem Ordered.of_frame {q q' : MessageQueue} {taken : List Message} (h : q.Ordered taken)
    (pending : q'.pending = q.pending) (nextOffsets : q'.nextOffsets = q.nextOffsets) :
    q'.Ordered taken := by
  constructor
  · rw [pending]
    exact h.increasing
  · simp only [nextOffset]
    rw [pending, nextOffsets]
    exact h.bounded

/-- What a read that finds a message does. -/
theorem read_message {q q' : MessageQueue} {m : Message} (h : q.read = (.message m, q')) :
    ∃ first rest, q.pending = first :: rest ∧ m = q.stamped first ∧
      q' = { q with pending := rest } := by
  unfold read at h
  split at h
  · rename_i first rest hp
    injection h with h1 h2
    injection h1 with h1
    exact ⟨first, rest, hp, h1.symm, h2.symm⟩
  · injection h with h1
    split at h1 <;> cases h1

/-- A read that finds no message changes nothing. -/
theorem read_none {q : MessageQueue} (h : ∀ m, q.read.1 ≠ .message m) : q.read.2 = q := by
  simp only [read] at h ⊢
  split
  · rename_i m rest hp
    rw [hp] at h
    exact absurd rfl (h (q.stamped m))
  · rfl

theorem Ordered.take {q q' : MessageQueue} {taken : List Message} {m : Message}
    (h : q.Ordered taken) (hr : q.read = (.message m, q')) : q'.Ordered (taken ++ [m]) := by
  obtain ⟨first, rest, hp, rfl, rfl⟩ := read_message hr
  have line : (taken ++ first :: rest).Pairwise Message.Precedes := hp ▸ h.increasing
  have bounded : ∀ m ∈ taken ++ first :: rest, m.offset < q.nextOffset m.partition :=
    hp ▸ h.bounded
  constructor
  · rw [List.append_assoc, List.singleton_append]
    rw [List.pairwise_append, List.pairwise_cons] at line ⊢
    refine ⟨line.1, ⟨line.2.1.1, line.2.1.2⟩, ?_⟩
    intro m mem m' mem'
    rcases List.mem_cons.1 mem' with rfl | mem'
    · exact line.2.2 m mem first List.mem_cons_self
    · exact line.2.2 m mem m' (List.mem_cons_of_mem _ mem')
  · intro m mem
    rw [List.append_assoc, List.singleton_append, List.mem_append, List.mem_cons] at mem
    rcases mem with mem | rfl | mem
    · exact bounded m (List.mem_append_left _ mem)
    · exact bounded first (List.mem_append_right _ List.mem_cons_self)
    · exact bounded m (List.mem_append_right _ (List.mem_cons_of_mem _ mem))

/-- A message may be left out of those that were taken. -/
theorem Ordered.sublist {q : MessageQueue} {taken taken' : List Message} (h : q.Ordered taken)
    (sub : taken'.Sublist taken) : q.Ordered taken' := by
  have sub := sub.append_right q.pending
  exact ⟨h.increasing.sublist sub, fun m mem => h.bounded m (sub.subset mem)⟩

/-! ## Committed offsets -/

/-- The greatest offset of each partition, if it has a message. -/
def Marks (committed : SortedMap Int Int) (ms : List Message) : Prop :=
  ∀ p, match committed.get? p with
    | none => ∀ m ∈ ms, m.partition ≠ p
    | some o => (∃ m ∈ ms, m.partition = p ∧ m.offset = o) ∧
      ∀ m ∈ ms, m.partition = p → m.offset ≤ o

theorem marks_empty : Marks .empty [] := by
  intro p
  simp

theorem Marks.raise {committed : SortedMap Int Int} {ms : List Message} (h : Marks committed ms)
    (m : Message) : Marks (raise committed m) (ms ++ [m]) := by
  intro p
  have hp := h p
  simp only [MessageQueue.raise]
  rw [SortedMap.get?_alter]
  by_cases same : p = m.partition
  · subst same
    simp only [if_true, List.mem_append, List.mem_singleton]
    cases hc : committed.get? m.partition with
    | none =>
      simp only [hc] at hp
      refine ⟨⟨m, .inr rfl, rfl, by simp⟩, ?_⟩
      rintro x (mem | rfl) hx
      · exact absurd hx (hp x mem)
      · simp
    | some o =>
      simp only [hc] at hp
      obtain ⟨⟨x, mem, hx, ho⟩, greatest⟩ := hp
      refine ⟨?_, ?_⟩
      · rcases Int.le_total o m.offset with le | le
        · exact ⟨m, .inr rfl, rfl, (Int.max_eq_right le).symm⟩
        · exact ⟨x, .inl mem, hx, ho.trans (Int.max_eq_left le).symm⟩
      · rintro y (mem | rfl) hy
        · exact Int.le_trans (greatest y mem hy) (Int.le_max_left _ _)
        · exact Int.le_max_right _ _
  · simp only [if_neg same]
    cases hc : committed.get? p with
    | none =>
      simp only [hc] at hp
      intro x mem hx
      rcases List.mem_append.1 mem with mem | mem
      · exact hp x mem hx
      · rw [List.mem_singleton] at mem
        exact same (by rw [← hx, mem])
    | some o =>
      simp only [hc] at hp
      obtain ⟨⟨x, mem, hx, ho⟩, greatest⟩ := hp
      refine ⟨⟨x, List.mem_append_left _ mem, hx, ho⟩, ?_⟩
      intro y mem hy
      rcases List.mem_append.1 mem with mem | mem
      · exact greatest y mem hy
      · rw [List.mem_singleton] at mem
        exact absurd (by rw [← hy, mem]) same

theorem Marks.raiseAll {committed : SortedMap Int Int} {ms : List Message}
    (h : Marks committed ms) (more : List Message) :
    Marks (more.foldl MessageQueue.raise committed) (ms ++ more) := by
  induction more generalizing committed ms with
  | nil => simpa using h
  | cons m rest ih => simpa using ih (h.raise m)

theorem Marks.commit {q : MessageQueue} (h : Marks q.committed q.commits.flatten)
    (ms : List Message) : Marks (q.commit ms).committed (q.commit ms).commits.flatten := by
  have := h.raiseAll ms
  simpa [MessageQueue.commit] using this

end MessageQueue

end ChangeCapture

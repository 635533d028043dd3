import ChangeCapture.Proofs.Message.Booked
import Mathlib.Data.List.Induction
import Mathlib.Data.List.Sort

/-!
# The positions of a summary

If the messages of each partition are acknowledged in one way, a summary stands at
the greatest offset of a partition that is acknowledged up to an offset, and at all
offsets of a partition that is acknowledged message by message.  So the order of the
messages does not matter (`Message.positions_perm`).  With both ways in one partition
it does: a message that is acknowledged up to its offset drops the earlier ones that it
finds, and not those that come after it.  The greatest offset of a partition does not
depend on the order in either way (`MessageQueue.commit_perm`).
-/

namespace ChangeCapture

namespace OffsetMap

/-- There is at most one offset. -/
def Single (p : OffsetMap) : Prop :=
  ∀ o o' m m', p.get? o = some m → p.get? o' = some m' → o = o'

theorem Single.record {p : OffsetMap} (h : p.Single) {m : Message}
    (latest : m.ackMode = .latestPerPartition) : (p.record m).Single := by
  unfold OffsetMap.record
  rw [latest]
  simp only
  split
  · intro o o' x x' hx hx'
    rw [SortedMap.get?_insert] at hx hx'
    split at hx
    · split at hx'
      · rename_i here here'
        rw [here, here']
      · cases hx'
    · cases hx
  · exact h

end OffsetMap

namespace PositionMap

/-- A partition that is acknowledged up to an offset has one. -/
theorem single_of_latest {ms : List Message} {p : Int}
    (latest : ∀ m ∈ ms, m.partition = p → m.ackMode = .latestPerPartition) :
    ((ms.foldl PositionMap.record .empty).getD p .empty).Single := by
  induction ms using List.reverseRecOn with
  | nil =>
    intro o o' m m' h
    simp [SortedMap.getD] at h
  | append_singleton ms m ih =>
    have before := ih fun m mem => latest m (List.mem_append_left _ mem)
    rw [List.foldl_append, List.foldl_cons, List.foldl_nil, SortedMap.getD, get?_record]
    split
    · rename_i here
      rw [← here]
      exact before.record (latest m (by simp) here.symm)
    · exact before

end PositionMap

namespace Message

/-- The messages of each partition are acknowledged in one way. -/
def Uniform (ms : List Message) : Prop :=
  ∀ m ∈ ms, ∀ m' ∈ ms, m.partition = m'.partition → m.ackMode = m'.ackMode

theorem Uniform.subset {ms ms' : List Message} (h : Uniform ms) (sub : ms' ⊆ ms) : Uniform ms' :=
  fun m mem m' mem' => h m (sub mem) m' (sub mem')

/-- No message stands after this one in its partition, if that is acknowledged up to an offset. -/
def Stands (ms : List Message) (m : Message) : Prop :=
  m.ackMode = .latestPerPartition → ∀ m' ∈ ms, m'.partition = m.partition → m'.offset ≤ m.offset

/-- The positions of a summary, if each partition is acknowledged in one way. -/
theorem mem_positions_iff {ms : List Message} (uniform : Uniform ms) {x : Int × Int} :
    x ∈ (summary ms).map position ↔ ∃ m ∈ ms, m.position = x ∧ Stands ms m := by
  rw [List.mem_map]
  constructor
  · rintro ⟨m, mem, rfl⟩
    obtain ⟨p, os, o, hp, ho⟩ := PositionMap.mem_messages_iff.1 mem
    obtain ⟨known, rfl⟩ := (summarises_summary ms).mem p os o m hp ho
    refine ⟨m, known, rfl, fun latest m' mem' part => ?_⟩
    have single := PositionMap.single_of_latest fun x hx part =>
      (uniform x hx m known part).trans latest
    rw [SortedMap.getD, hp, Option.getD_some] at single
    obtain ⟨os', hp', o', x, hx, le⟩ := (summarises_summary ms).reaches m' mem'
    rw [part, hp] at hp'
    obtain rfl := Option.some.inj hp'
    rwa [(summarises_summary ms).aligned _ os hp o m ho, single o o' m x ho hx]
  · rintro ⟨m, mem, rfl, stands⟩
    cases way : m.ackMode with
    | latestPerPartition =>
      obtain ⟨m', mem', partition, le⟩ := summary_covers mem
      have ge := stands way m' (mem_of_mem_summary mem') partition
      exact ⟨m', mem', Prod.ext partition (Int.le_antisymm ge le)⟩
    | everyMessage =>
      exact exists_position_summary
        (fun x hx part => (uniform x hx m mem part).trans way) mem

/-- The first position stands before the second one. -/
def PositionBefore (x y : Int × Int) : Prop := x.1 < y.1 ∨ x.1 = y.1 ∧ x.2 < y.2

instance : Std.Irrefl PositionBefore := ⟨fun x h => by rcases h with h | ⟨-, h⟩ <;> omega⟩

instance : Std.Antisymm PositionBefore :=
  ⟨fun x y h h' => by
    exfalso
    rcases h with h | ⟨h, _⟩ <;> rcases h' with h' | ⟨h', _⟩ <;> omega⟩

theorem sorted_positions (ms : List Message) :
    ((summary ms).map position).Pairwise PositionBefore := by
  rw [List.pairwise_map]
  exact sorted_summary ms

/-- If each partition is acknowledged in one way, the positions of a summary do not depend on the
order of the messages. -/
theorem positions_perm {ms ms' : List Message} (uniform : Uniform ms) (same : ms.Perm ms') :
    (summary ms').map position = (summary ms).map position := by
  refine List.Pairwise.eq_of_mem_iff (sorted_positions ms') (sorted_positions ms) fun x => ?_
  rw [mem_positions_iff (uniform.subset same.symm.subset), mem_positions_iff uniform]
  unfold Stands
  simp only [same.mem_iff]

end Message

/-! ## The greatest offsets -/

namespace MessageQueue

/-- The partition is committed up to the offset. -/
def Reaches (committed : SortedMap Int Int) (p o : Int) : Prop :=
  ∃ mark, committed.get? p = some mark ∧ o ≤ mark

theorem reaches_raise (committed : SortedMap Int Int) (m : Message) (p o : Int) :
    Reaches (raise committed m) p o ↔
      Reaches committed p o ∨ m.partition = p ∧ o ≤ m.offset := by
  unfold Reaches raise
  rw [SortedMap.get?_alter]
  by_cases here : p = m.partition
  · subst here
    cases committed.get? m.partition with
    | none => simp
    | some mark =>
      simp only [if_true, Option.getD_some, Option.some.injEq, exists_eq_left', true_and]
      omega
  · simp [here, Ne.symm here]

theorem reaches_raiseAll (committed : SortedMap Int Int) (ms : List Message) (p o : Int) :
    Reaches (ms.foldl raise committed) p o ↔
      Reaches committed p o ∨ ∃ m ∈ ms, m.partition = p ∧ o ≤ m.offset := by
  induction ms generalizing committed with
  | nil => simp
  | cons m rest ih =>
    rw [List.foldl_cons, ih, reaches_raise, or_assoc]
    simp

theorem eq_of_reaches {committed committed' : SortedMap Int Int}
    (same : ∀ p o, Reaches committed' p o ↔ Reaches committed p o) : committed' = committed := by
  refine SortedMap.ext_get? fun p => ?_
  cases h' : committed'.get? p with
  | none =>
    cases h : committed.get? p with
    | none => rfl
    | some mark =>
      obtain ⟨mark', there, -⟩ := (same p mark).2 ⟨mark, h, Int.le_refl mark⟩
      rw [h'] at there
      cases there
  | some mark' =>
    obtain ⟨mark, h, le⟩ := (same p mark').1 ⟨mark', h', Int.le_refl mark'⟩
    obtain ⟨top, there, ge⟩ := (same p mark).2 ⟨mark, h, Int.le_refl mark⟩
    rw [h'] at there
    obtain rfl := Option.some.inj there
    rw [h, Int.le_antisymm le ge]

/-- A queue without its commits, which still tells the greatest offsets that were committed. -/
def withoutCommits (q : MessageQueue) : MessageQueue := { q with commits := [] }

/-- The commits of a queue as positions. -/
def commitPositions (q : MessageQueue) : List (List (Int × Int)) :=
  q.commits.map (List.map Message.position)

/-- The greatest offsets that are committed do not depend on the order of the messages. -/
theorem commit_perm {ms ms' : List Message} (same : ms.Perm ms') (q : MessageQueue) :
    (q.commit (Message.summary ms')).withoutCommits =
      (q.commit (Message.summary ms)).withoutCommits := by
  have summarised : ∀ (ms : List Message) (p o : Int),
      (∃ m ∈ Message.summary ms, m.partition = p ∧ o ≤ m.offset) ↔
        ∃ m ∈ ms, m.partition = p ∧ o ≤ m.offset := by
    intro ms p o
    constructor
    · rintro ⟨m, mem, there⟩
      exact ⟨m, Message.mem_of_mem_summary mem, there⟩
    · rintro ⟨m, mem, rfl, le⟩
      obtain ⟨m', mem', partition, further⟩ := Message.summary_covers mem
      exact ⟨m', mem', partition, Int.le_trans le further⟩
  have marks : (Message.summary ms').foldl raise q.committed =
      (Message.summary ms).foldl raise q.committed := by
    refine eq_of_reaches fun p o => ?_
    rw [reaches_raiseAll, reaches_raiseAll, summarised, summarised]
    simp only [same.mem_iff]
  simp only [withoutCommits, commit, marks]

/-- If each partition is acknowledged in one way, the positions of a commit do not depend on the
order of the messages. -/
theorem commitPositions_perm {ms ms' : List Message} (uniform : Message.Uniform ms)
    (same : ms.Perm ms') (q : MessageQueue) :
    (q.commit (Message.summary ms')).commitPositions =
      (q.commit (Message.summary ms)).commitPositions := by
  simp only [commitPositions, commit, List.map_append, List.map_cons,
    Message.positions_perm uniform same]

end MessageQueue

end ChangeCapture

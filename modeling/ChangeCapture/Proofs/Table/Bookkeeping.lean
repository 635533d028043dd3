import ChangeCapture.Proofs.Table.Rows
import ChangeCapture.Trial.Sample
import Mathlib.Data.Finset.Sort

/-!
# The books of a window

A window keeps numbers beside its rows: how many bytes they take, which kinds of
rows were saved, the latest time, and the messages to commit.  They are kept up
entry by entry.  Here each of them is said of everything that was entered
(`Window.Mirrors`).

The size is a sum that is never formed: a row that is saved over another adds what
it takes as it is stored and frees what the other one took (`Window.byteSize_insert`).
This is the sum over the rows as long as it fits in 64 bits (`Window.exact_insert_iff`).
-/

namespace ChangeCapture

/-! ## Messages of a partition -/

namespace Message

/-- The messages that wait for a commit: those from the last one on that acknowledges up to its
offset, or all if there is none. -/
def pending : List Message → List Message
  | [] => []
  | m :: rest => if rest.any (·.ackMode == .latestPerPartition) then pending rest else m :: rest

/-- The messages that wait for a commit, if there are messages at all. -/
def waiting? (ms : List Message) : Option (List Message) :=
  if ms.isEmpty then none else some (pending ms)

/-- The messages of a partition, in order. -/
def ofPartition (ms : List Message) (p : Int) : List Message := ms.filter (·.partition == p)

/-- The partitions of some messages, in ascending order. -/
def partitions (ms : List Message) : List Int := (ms.map Message.partition).toFinset.sort (· ≤ ·)

theorem pending_concat (ms : List Message) (m : Message) :
    pending (ms ++ [m]) = match m.ackMode with
      | .latestPerPartition => [m]
      | .everyMessage => pending ms ++ [m] := by
  induction ms with
  | nil => cases h : m.ackMode <;> simp [pending]
  | cons first rest ih =>
    rw [List.cons_append, pending, ih]
    cases h : m.ackMode with
    | latestPerPartition => simp [h]
    | everyMessage =>
      rw [pending, List.any_append]
      cases rest.any (·.ackMode == .latestPerPartition) <;> simp [h]

theorem waiting?_concat (ms : List Message) (m : Message) :
    waiting? (ms ++ [m]) = some (match m.ackMode with
      | .latestPerPartition => [m]
      | .everyMessage => pending ms ++ [m]) := by
  rw [← pending_concat]
  exact if_neg (by simp)

theorem getD_waiting? (ms : List Message) : (waiting? ms).getD [] = pending ms := by
  cases ms with
  | nil => rfl
  | cons m rest => rfl

theorem exists_waiting?_iff {ms : List Message} : (∃ v, waiting? ms = some v) ↔ ms ≠ [] := by
  cases ms with
  | nil => simp [waiting?]
  | cons m rest => simp [waiting?]

theorem ofPartition_ne_nil_iff {ms : List Message} {p : Int} :
    ofPartition ms p ≠ [] ↔ p ∈ ms.map Message.partition := by
  simp [ofPartition, List.filter_eq_nil_iff]

theorem ofPartition_concat (ms : List Message) (m : Message) (p : Int) :
    ofPartition (ms ++ [m]) p = if p = m.partition then ofPartition ms p ++ [m]
      else ofPartition ms p := by
  unfold ofPartition
  rw [List.filter_append]
  by_cases here : p = m.partition
  · simp [here]
  · simp [here, Ne.symm here]

end Message

/-! ## Sizes and times -/

theorem Row.addBytes_of_lt {m n : Nat} (h : m + n < 2 ^ 64) : addBytes m n = m + n := by
  have : maxBytes = 2 ^ 64 - 1 := rfl
  unfold addBytes
  omega

theorem Row.addBytes_of_le {m n : Nat} (h : 2 ^ 64 ≤ m + n) : addBytes m n = 2 ^ 64 - 1 := by
  have : maxBytes = 2 ^ 64 - 1 := rfl
  unfold addBytes
  omega

/-- The latest of some times, if there are any. -/
def Instant.IsLatest (ts : List Instant) : Option Instant → Prop
  | none => ts = []
  | some t => t ∈ ts ∧ ∀ u ∈ ts, u.micros ≤ t.micros

theorem Instant.IsLatest.concat {ts : List Instant} {latest : Option Instant}
    (h : IsLatest ts latest) (t : Instant) :
    IsLatest (ts ++ [t]) (if latest.all (·.micros < t.micros) then some t else latest) := by
  cases latest with
  | none => simp [IsLatest, show ts = [] from h]
  | some u =>
    obtain ⟨mem, le⟩ := h
    by_cases later : u.micros < t.micros
    · have all : ∀ v ∈ ts, v.micros ≤ t.micros := fun v hv => (le v hv).trans later.le
      simpa [IsLatest, later, or_imp, forall_and] using all
    · have last : t.micros ≤ u.micros := not_lt.1 later
      simpa [IsLatest, later, mem, last, or_imp, forall_and] using le

namespace Window

open Tracks (layer)

/-! ## Entries -/

/-- What is entered into a window. -/
inductive Entry where
  /-- A row. -/
  | row (i : Insertion)
  /-- The time of a change. -/
  | time (t : Instant)
  /-- A message. -/
  | message (m : Message)

namespace Entry

/-- The rows among some entries. -/
def rows : List Entry → List Insertion := List.filterMap fun
  | .row i => some i
  | _ => none

/-- The times among some entries. -/
def times : List Entry → List Instant := List.filterMap fun
  | .time t => some t
  | _ => none

/-- The messages among some entries. -/
def messages : List Entry → List Message := List.filterMap fun
  | .message m => some m
  | _ => none

end Entry

/-- Enters a row, a time or a message. -/
def enter (w : Window) : Entry → Window
  | .row i => w.insert i.key i.row i.deleted
  | .time t => w.observe t
  | .message m => w.record m

/-- Enters one after the other. -/
def enterAll (w : Window) (es : List Entry) : Window := es.foldl enter w

theorem enterAll_concat (w : Window) (es : List Entry) (e : Entry) :
    w.enterAll (es ++ [e]) = (w.enterAll es).enter e := by
  simp only [enterAll, List.foldl_append, List.foldl_cons, List.foldl_nil]

theorem settings_insert (w : Window) (key : String) (row : Row) (deleted : Bool) :
    (w.insert key row deleted).settings = w.settings := by
  unfold insert
  split <;> rfl

theorem observe_eq (w : Window) (time : Instant) :
    w.observe time = { w with
      latest := if w.latest.all (·.micros < time.micros) then some time else w.latest } := by
  unfold observe
  split <;> rfl

theorem latest_insert (w : Window) (key : String) (row : Row) (deleted : Bool) :
    (w.insert key row deleted).latest = w.latest := by
  unfold insert
  split <;> rfl

/-! ## Sizes -/

/-- The bytes that the rows take. -/
def rowBytes (w : Window) : Nat := (w.rows.map Row.byteSize).sum

/-- A row as it is stored: in replication mode it is laid over the row of its key. -/
def stored (w : Window) (i : Insertion) : Row :=
  match w.mode with
  | .replication => layer (w.keyed.get? i.key) i.row
  | .history => i.row

/-- The bytes of the row that gives way to a row of a key. -/
def replacedBytes (w : Window) (key : String) : Nat :=
  match w.mode with
  | .replication => ((w.keyed.get? key).map Row.byteSize).getD 0
  | .history => 0

theorem byteSize_insert (w : Window) (i : Insertion) :
    (w.insert i.key i.row i.deleted).byteSize =
      Row.addBytes w.byteSize (w.stored i).byteSize - w.replacedBytes i.key := by
  simp only [insert, stored, replacedBytes]
  cases w.mode <;> rfl

theorem rowBytes_insert (w : Window) (i : Insertion) :
    (w.insert i.key i.row i.deleted).rowBytes + w.replacedBytes i.key =
      w.rowBytes + (w.stored i).byteSize := by
  unfold rowBytes rows
  rw [mode_insert]
  cases mode : w.mode with
  | replication =>
    simp only [stored, replacedBytes]
    rw [mode, keyed_insert mode, SortedMap.sum_values_insert,
      SortedMap.sum_values Row.byteSize w.keyed i.key]
    simp only
    omega
  | history =>
    simp only [stored, replacedBytes, insert, append]
    rw [mode]
    simp

theorem replacedBytes_le (w : Window) (key : String) : w.replacedBytes key ≤ w.rowBytes := by
  unfold replacedBytes rowBytes rows
  cases w.mode with
  | replication =>
    simp only
    rw [SortedMap.sum_values Row.byteSize w.keyed key]
    exact Nat.le_add_right _ _
  | history => exact Nat.zero_le _

/-- The size stays exact if and only if the rows and the new row as it is stored fit together. -/
theorem exact_insert_iff {w : Window} (exact : w.byteSize = w.rowBytes)
    (le : w.rowBytes < 2 ^ 64) (i : Insertion) :
    (w.insert i.key i.row i.deleted).byteSize = (w.insert i.key i.row i.deleted).rowBytes ↔
      w.rowBytes + (w.stored i).byteSize < 2 ^ 64 := by
  have replaced := w.replacedBytes_le i.key
  have rows := w.rowBytes_insert i
  rw [byteSize_insert, exact]
  constructor
  · intro same
    by_contra exceeds
    rw [Row.addBytes_of_le (Nat.le_of_not_lt exceeds)] at same
    omega
  · intro fits
    rw [Row.addBytes_of_lt fits]
    omega

/-- The rows and a row that is entered, as it is stored, fit together in 64 bits. -/
def HasRoomFor (w : Window) : Entry → Prop
  | .row i => w.rowBytes + (w.stored i).byteSize < 2 ^ 64
  | _ => True

/-- Every row that is entered fits. -/
def HasRoom (w : Window) : List Entry → Prop
  | [] => True
  | e :: rest => w.HasRoomFor e ∧ (w.enter e).HasRoom rest

instance (w : Window) (e : Entry) : Decidable (w.HasRoomFor e) :=
  match e with
  | .row i => inferInstanceAs (Decidable (w.rowBytes + (w.stored i).byteSize < 2 ^ 64))
  | .time _ => .isTrue trivial
  | .message _ => .isTrue trivial

instance decidableHasRoom (w : Window) : (es : List Entry) → Decidable (w.HasRoom es)
  | [] => .isTrue trivial
  | e :: rest =>
    have := decidableHasRoom (w.enter e) rest
    inferInstanceAs (Decidable (_ ∧ _))

theorem exact_enter {w : Window} (exact : w.byteSize = w.rowBytes) {e : Entry}
    (fits : w.HasRoomFor e) : (w.enter e).byteSize = (w.enter e).rowBytes := by
  cases e with
  | row i =>
    have le : w.rowBytes < 2 ^ 64 := Nat.lt_of_le_of_lt (Nat.le_add_right _ _) fits
    exact (exact_insert_iff exact le i).2 fits
  | time t =>
    show (w.observe t).byteSize = (w.observe t).rowBytes
    rw [observe_eq]
    exact exact
  | message m => exact exact

theorem exact_enterAll {w : Window} (exact : w.byteSize = w.rowBytes) {es : List Entry}
    (room : w.HasRoom es) : (w.enterAll es).byteSize = (w.enterAll es).rowBytes := by
  induction es generalizing w with
  | nil => exact exact
  | cons e rest ih => exact ih (exact_enter exact room.1) room.2

/-! ## Flags, times and messages -/

/-- What a window says beside its rows is what was entered into it. -/
structure Mirrors (w : Window) (mode : Mode) (s : TopicSettings) (es : List Entry) : Prop where
  /-- The mode is the one at the start. -/
  mode_eq : w.mode = mode
  /-- So are the settings. -/
  settings_eq : w.settings = s
  /-- Whether a deleted row was saved that must go from the destination. -/
  hardDeletes : mode = .replication →
    (w.hasHardDeletes ↔ ∃ i ∈ Entry.rows es, i.deleted ∧ s.softDelete = false)
  /-- Whether a row was saved that is not deleted. -/
  otherOperations : mode = .replication →
    (w.hasOtherOperations ↔ ∃ i ∈ Entry.rows es, i.deleted = false)
  /-- The latest time. -/
  latest : Instant.IsLatest (Entry.times es) w.latest
  /-- The messages of a partition that wait. -/
  messages : ∀ p,
    w.messages.get? p = Message.waiting? (Message.ofPartition (Entry.messages es) p)

namespace Mirrors

variable {w : Window} {mode : Mode} {s : TopicSettings} {es : List Entry}

theorem row (h : w.Mirrors mode s es) (i : Insertion) :
    (w.insert i.key i.row i.deleted).Mirrors mode s (es ++ [.row i]) := by
  have rows : Entry.rows (es ++ [.row i]) = Entry.rows es ++ [i] := by simp [Entry.rows]
  have times : Entry.times (es ++ [.row i]) = Entry.times es := by simp [Entry.times]
  have messages : Entry.messages (es ++ [.row i]) = Entry.messages es := by simp [Entry.messages]
  refine ⟨?_, ?_, ?_, ?_, ?_, ?_⟩
  · rw [mode_insert, h.mode_eq]
  · rw [settings_insert, h.settings_eq]
  · intro replication
    have flag : (w.insert i.key i.row i.deleted).hasHardDeletes =
        (w.hasHardDeletes || (i.deleted && !w.settings.softDelete)) := by
      unfold insert
      rw [h.mode_eq, replication]
      rfl
    rw [flag, h.settings_eq, Bool.or_eq_true, h.hardDeletes replication, rows]
    simp [or_and_right, exists_or]
  · intro replication
    have flag : (w.insert i.key i.row i.deleted).hasOtherOperations =
        (w.hasOtherOperations || !i.deleted) := by
      unfold insert
      rw [h.mode_eq, replication]
      rfl
    rw [flag, Bool.or_eq_true, h.otherOperations replication, rows]
    simp [or_and_right, exists_or]
  · rw [latest_insert, times]
    exact h.latest
  · rw [messages_insert, messages]
    exact h.messages

theorem time (h : w.Mirrors mode s es) (t : Instant) :
    (w.observe t).Mirrors mode s (es ++ [.time t]) := by
  have rows : Entry.rows (es ++ [.time t]) = Entry.rows es := by simp [Entry.rows]
  have times : Entry.times (es ++ [.time t]) = Entry.times es ++ [t] := by simp [Entry.times]
  have messages : Entry.messages (es ++ [.time t]) = Entry.messages es := by simp [Entry.messages]
  refine ⟨?_, ?_, ?_, ?_, ?_, ?_⟩
  · rw [mode_observe, h.mode_eq]
  · rw [observe_eq, h.settings_eq]
  · rw [rows, observe_eq]
    exact h.hardDeletes
  · rw [rows, observe_eq]
    exact h.otherOperations
  · rw [times, observe_eq]
    exact h.latest.concat t
  · rw [messages_observe, messages]
    exact h.messages

theorem message (h : w.Mirrors mode s es) (m : Message) :
    (w.record m).Mirrors mode s (es ++ [.message m]) := by
  have rows : Entry.rows (es ++ [.message m]) = Entry.rows es := by simp [Entry.rows]
  have times : Entry.times (es ++ [.message m]) = Entry.times es := by simp [Entry.times]
  have messages : Entry.messages (es ++ [.message m]) = Entry.messages es ++ [m] := by
    simp [Entry.messages]
  refine ⟨h.mode_eq, h.settings_eq, ?_, ?_, ?_, ?_⟩
  · rw [rows]
    exact h.hardDeletes
  · rw [rows]
    exact h.otherOperations
  · rw [times]
    exact h.latest
  · intro p
    rw [get?_messages_record, messages, Message.ofPartition_concat]
    split
    · rename_i here
      subst here
      rw [h.messages, Message.getD_waiting?]
      exact (Message.waiting?_concat _ m).symm
    · exact h.messages p

theorem enter (h : w.Mirrors mode s es) (e : Entry) :
    (w.enter e).Mirrors mode s (es ++ [e]) := by
  cases e with
  | row i => exact h.row i
  | time t => exact h.time t
  | message m => exact h.message m

theorem enterAll {w : Window} (start : w.Mirrors mode s []) (es : List Entry) :
    (w.enterAll es).Mirrors mode s es := by
  induction es using List.reverseRecOn with
  | nil => exact start
  | append_singleton es e ih =>
    rw [enterAll_concat]
    exact ih.enter e

theorem partitions (h : w.Mirrors mode s es) :
    w.messages.keys = Message.partitions (Entry.messages es) := by
  have sorted : w.messages.keys.Pairwise (· ≤ ·) :=
    List.pairwise_map.2 (w.messages.sorted.imp fun lt => (compare_lt_iff_lt.1 lt).le)
  have same : w.messages.keys.toFinset = ((Entry.messages es).map Message.partition).toFinset := by
    ext p
    rw [List.mem_toFinset, List.mem_toFinset, SortedMap.mem_keys_iff, h.messages,
      Message.exists_waiting?_iff, Message.ofPartition_ne_nil_iff]
  rw [Message.partitions, ← same]
  exact ((List.toFinset_sort _ (SortedMap.nodup_keys _)).2 sorted).symm

theorem lastMessages (h : w.Mirrors mode s es) :
    w.lastMessages = (Message.partitions (Entry.messages es)).flatMap fun p =>
      Message.pending (Message.ofPartition (Entry.messages es) p) := by
  unfold Window.lastMessages
  rw [SortedMap.values_eq_map_keys _ [], h.partitions, List.flatMap]
  simp only [SortedMap.getD, h.messages, Message.getD_waiting?]

end Mirrors

theorem mirrors_new (tableId : TableId) (name : String) (mode : Mode) (columns : ColumnRegistry)
    (primaryKeys : List String) (s : TopicSettings) :
    (new tableId name mode columns primaryKeys s).Mirrors mode s [] := by
  refine ⟨rfl, rfl, ?_, ?_, rfl, fun p => rfl⟩
  · simp [new, Entry.rows]
  · simp [new, Entry.rows]

/-! ## All books -/

/-- The books of a window agree with its rows and with what was entered into it. -/
structure Balanced (w : Window) (mode : Mode) (s : TopicSettings) (es : List Entry) : Prop
    extends w.Mirrors mode s es where
  /-- The size is the sum over the rows. -/
  byteSize : w.byteSize = w.rowBytes
  /-- The messages to commit are, partition by partition in ascending order, those that wait. -/
  lastMessages : w.lastMessages = (Message.partitions (Entry.messages es)).flatMap fun p =>
    Message.pending (Message.ofPartition (Entry.messages es) p)

/-- The books of a new window are right after whatever is entered, as long as the rows fit. -/
theorem balanced_enterAll (tableId : TableId) (name : String) (mode : Mode)
    (columns : ColumnRegistry) (primaryKeys : List String) (s : TopicSettings) (es : List Entry)
    (room : (new tableId name mode columns primaryKeys s).HasRoom es) :
    ((new tableId name mode columns primaryKeys s).enterAll es).Balanced mode s es := by
  have mirrors := (mirrors_new tableId name mode columns primaryKeys s).enterAll es
  have exact : (new tableId name mode columns primaryKeys s).byteSize =
      (new tableId name mode columns primaryKeys s).rowBytes := by
    cases mode <;> rfl
  exact ⟨mirrors, exact_enterAll exact room, mirrors.lastMessages⟩

/-- A row, a deleted row of the same key that leaves a value out, their times, and messages of two
partitions. -/
def sampleEntries : List Entry :=
  let m := Sample.message "people" 0 .empty .empty
  [.row ⟨"1", .ofList [("id", .int 1), ("name", .string "Ann")], false⟩, .time ⟨7⟩,
    .message { m with partition := 1 },
    .row ⟨"1", .ofList [("id", .int 1), ("name", .string Json.unavailable)], true⟩, .time ⟨3⟩,
    .message { m with ackMode := .everyMessage },
    .message { m with partition := 1, offset := 4, ackMode := .everyMessage }]

theorem balanced_sampleEntries :
    (new ⟨"public", "people"⟩ "people" .replication .empty [] (Sample.settings "people")).HasRoom
        sampleEntries ∧
      ((new ⟨"public", "people"⟩ "people" .replication .empty []
        (Sample.settings "people")).enterAll sampleEntries).Balanced .replication
          (Sample.settings "people") sampleEntries :=
  have room : (new ⟨"public", "people"⟩ "people" .replication .empty []
      (Sample.settings "people")).HasRoom sampleEntries := by decide +kernel
  ⟨room, balanced_enterAll _ _ _ _ _ _ _ room⟩

end Window

end ChangeCapture

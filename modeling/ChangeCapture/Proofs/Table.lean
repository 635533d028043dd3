import ChangeCapture.Proofs.Message.Summary
import ChangeCapture.Table.Registry

/-!
# Windows and their tables

What saving and recording do to a window, and what registering and replacing
do to the buffers of all tables.
-/

namespace ChangeCapture

namespace Window

/-! ## Rows -/

theorem isEmpty_insert (w : Window) (key : String) (row : Row) (deleted : Bool) :
    (w.insert key row deleted).isEmpty = false := by
  simp only [isEmpty, rows, insert]
  cases hm : w.mode with
  | replication =>
    simp only [upsert, hm, List.isEmpty_eq_false_iff]
    intro none
    have := SortedMap.values_eq_nil_iff.1 none key
    rw [SortedMap.get?_insert_self] at this
    cases this
  | history => simp [append, hm]

/-! ## Frames -/

@[simp]
theorem tableId_insert (w : Window) (key : String) (row : Row) (deleted : Bool) :
    (w.insert key row deleted).tableId = w.tableId := by
  simp only [insert, upsert, append]
  split <;> rfl

@[simp]
theorem messages_insert (w : Window) (key : String) (row : Row) (deleted : Bool) :
    (w.insert key row deleted).messages = w.messages := by
  simp only [insert, upsert, append]
  split <;> rfl

@[simp]
theorem columns_insert (w : Window) (key : String) (row : Row) (deleted : Bool) :
    (w.insert key row deleted).columns = w.columns := by
  simp only [insert, upsert, append]
  split <;> rfl

@[simp]
theorem tableId_observe (w : Window) (time : Instant) : (w.observe time).tableId = w.tableId := by
  simp only [observe]
  split <;> rfl

@[simp]
theorem messages_observe (w : Window) (time : Instant) :
    (w.observe time).messages = w.messages := by
  simp only [observe]
  split <;> rfl

@[simp]
theorem mode_observe (w : Window) (time : Instant) : (w.observe time).mode = w.mode := by
  simp only [observe]
  split <;> rfl

@[simp]
theorem keyed_observe (w : Window) (time : Instant) : (w.observe time).keyed = w.keyed := by
  simp only [observe]
  split <;> rfl

@[simp]
theorem appended_observe (w : Window) (time : Instant) :
    (w.observe time).appended = w.appended := by
  simp only [observe]
  split <;> rfl

/-- A window with other columns, times and messages has the same rows. -/
theorem isEmpty_congr {w w' : Window} (mode : w'.mode = w.mode) (keyed : w'.keyed = w.keyed)
    (appended : w'.appended = w.appended) : w'.isEmpty = w.isEmpty := by
  simp only [isEmpty, rows]
  rw [mode, keyed, appended]

/-- There are rows after one was saved with its time and its message. -/
theorem isEmpty_record_insert (w : Window) (key : String) (row : Row) (deleted : Bool)
    (time : Instant) (m : Message) :
    (((w.insert key row deleted).observe time).record m).isEmpty = false := by
  rw [← isEmpty_insert w key row deleted]
  exact isEmpty_congr (mode_observe _ _) (keyed_observe _ _) (appended_observe _ _)

/-! ## Messages -/

/-- The messages stand under their partitions. -/
def Aligned (w : Window) : Prop :=
  ∀ p ms, w.messages.get? p = some ms → ∀ m ∈ ms, m.partition = p

theorem mem_lastMessages_iff {w : Window} {m : Message} :
    m ∈ w.lastMessages ↔ ∃ p ms, w.messages.get? p = some ms ∧ m ∈ ms := by
  simp only [lastMessages, List.mem_flatten, SortedMap.mem_values_iff]
  constructor
  · rintro ⟨ms, ⟨p, hp⟩, mem⟩
    exact ⟨p, ms, hp, mem⟩
  · rintro ⟨p, ms, hp, mem⟩
    exact ⟨ms, ⟨p, hp⟩, mem⟩

/-- What a partition holds after a message was recorded in it. -/
theorem get?_messages_record (w : Window) (m : Message) (p : Int) :
    (w.record m).messages.get? p =
      if p = m.partition then
        some (match m.ackMode with
          | .latestPerPartition => [m]
          | .everyMessage => (w.messages.get? m.partition).getD [] ++ [m])
      else w.messages.get? p :=
  SortedMap.get?_alter w.messages m.partition p _

theorem get?_messages_record_cases {w : Window} {m : Message} {p : Int} {ms : List Message}
    (h : (w.record m).messages.get? p = some ms) :
    ∀ x ∈ ms, (x = m ∧ p = m.partition) ∨ ∃ old, w.messages.get? p = some old ∧ x ∈ old := by
  intro x mem
  rw [get?_messages_record] at h
  split at h
  · rename_i hp
    have h := Option.some.inj h
    cases hack : m.ackMode with
    | latestPerPartition =>
      simp only [hack] at h
      rw [← h, List.mem_singleton] at mem
      exact .inl ⟨mem, hp⟩
    | everyMessage =>
      simp only [hack] at h
      rw [← h, List.mem_append, List.mem_singleton] at mem
      rcases mem with mem | rfl
      · cases hold : w.messages.get? m.partition with
        | none => simp [hold] at mem
        | some old => exact .inr ⟨old, by rw [hp, hold], by simpa [hold] using mem⟩
      · exact .inl ⟨rfl, hp⟩
  · exact .inr ⟨ms, h, mem⟩

theorem Aligned.record {w : Window} (h : w.Aligned) (m : Message) : (w.record m).Aligned := by
  intro p ms hp x mem
  rcases get?_messages_record_cases hp x mem with ⟨rfl, rfl⟩ | ⟨old, hold, mem⟩
  · rfl
  · exact h p old hold x mem

theorem mem_lastMessages_record {w : Window} {m x : Message}
    (h : x ∈ (w.record m).lastMessages) : x = m ∨ x ∈ w.lastMessages := by
  obtain ⟨p, ms, hp, mem⟩ := mem_lastMessages_iff.1 h
  rcases get?_messages_record_cases hp x mem with ⟨rfl, -⟩ | ⟨old, hold, mem⟩
  · exact .inl rfl
  · exact .inr (mem_lastMessages_iff.2 ⟨p, old, hold, mem⟩)

theorem mem_record_self (w : Window) (m : Message) : m ∈ (w.record m).lastMessages := by
  have h := get?_messages_record w m m.partition
  rw [if_pos rfl] at h
  refine mem_lastMessages_iff.2 ⟨m.partition, _, h, ?_⟩
  split <;> simp

/-- What was covered stays covered when a message is recorded that comes later in its
partition. -/
theorem covered_record {w : Window} (aligned : w.Aligned) {m x : Message}
    (h : x.Covered w.lastMessages) (later : x.partition = m.partition → x.offset ≤ m.offset) :
    x.Covered (w.record m).lastMessages := by
  obtain ⟨y, mem, hp, ho⟩ := h
  obtain ⟨p, ms, hms, mem⟩ := mem_lastMessages_iff.1 mem
  by_cases same : x.partition = m.partition
  · exact ⟨m, mem_record_self w m, same.symm, later same⟩
  · refine ⟨y, mem_lastMessages_iff.2 ⟨p, ms, ?_, mem⟩, hp, ho⟩
    rw [get?_messages_record, if_neg, hms]
    rintro rfl
    exact same (hp.symm.trans (aligned _ ms hms y mem))

/-- The messages stand under their partitions, and there are none without rows. -/
structure Tidy (w : Window) : Prop where
  /-- The messages stand under their partitions. -/
  aligned : w.Aligned
  /-- Without rows there are no messages. -/
  quiet : w.isEmpty → w.lastMessages = []

end Window

/-! ## Buffers of all tables -/

namespace TableRegistry

/-- The buffer of a table holds a window with rows. -/
structure Holds (r : TableRegistry) (t : TableId) (b : TableBuffer) (w : Window) : Prop where
  /-- The buffer. -/
  buffer : r.get? t = some b
  /-- Its window. -/
  window : b.window = some w
  /-- The window has rows. -/
  filled : w.isEmpty = false

theorem getOrNew_register (r : TableRegistry) (t : TableId) (topic : String) :
    (r.register t topic).getOrNew t topic = r.getOrNew t topic := by
  unfold register getOrNew SortedMap.contains
  cases h : r.tables.get? t <;> simp [SortedMap.getD, h]

theorem get?_set (r : TableRegistry) (t t' : TableId) (b : TableBuffer) :
    (r.set t b).get? t' = if t' = t then some b else r.get? t' :=
  SortedMap.get?_insert r.tables t t' b

theorem get?_register_of_ne (r : TableRegistry) {t t' : TableId} (topic : String) (h : t' ≠ t) :
    (r.register t topic).get? t' = r.get? t' := by
  simp only [register, get?]
  split
  · rfl
  · exact SortedMap.get?_insert_of_ne _ _ h

/-- Puts a window into the buffer of a table, which is registered under a topic if it is new. -/
def putWindow (r : TableRegistry) (t : TableId) (topic : String) (w : Window) : TableRegistry :=
  (r.register t topic).set t ((r.getOrNew t topic).setWindow w)

theorem get?_putWindow (r : TableRegistry) (t t' : TableId) (topic : String) (w : Window) :
    (r.putWindow t topic w).get? t' =
      if t' = t then some ((r.getOrNew t topic).setWindow w) else r.get? t' := by
  simp only [putWindow]
  rw [get?_set]
  split
  · rfl
  · exact get?_register_of_ne r topic ‹_›

theorem get?_putWindow_self (r : TableRegistry) (t : TableId) (topic : String) (w : Window) :
    (r.putWindow t topic w).get? t = some ((r.getOrNew t topic).setWindow w) := by
  rw [get?_putWindow, if_pos rfl]

theorem get?_putWindow_of_ne (r : TableRegistry) {t t' : TableId} (topic : String) (w : Window)
    (ne : t' ≠ t) : (r.putWindow t topic w).get? t' = r.get? t' := by
  rw [get?_putWindow, if_neg ne]

theorem holds_putWindow_self (r : TableRegistry) (t : TableId) (topic : String) {w : Window}
    (filled : w.isEmpty = false) :
    (r.putWindow t topic w).Holds t ((r.getOrNew t topic).setWindow w) w :=
  ⟨r.get?_putWindow_self t topic w, rfl, filled⟩

theorem Holds.putWindow_of_ne {r : TableRegistry} {t t' : TableId} {b : TableBuffer} {w : Window}
    (h : r.Holds t' b w) (topic : String) (w' : Window) (ne : t' ≠ t) :
    (r.putWindow t topic w').Holds t' b w :=
  ⟨(r.get?_putWindow_of_ne topic w' ne).trans h.buffer, h.window, h.filled⟩

/-- A table that is there stays there. -/
theorem registered_putWindow {r : TableRegistry} {t' : TableId} (h : ∃ b, r.get? t' = some b)
    (t : TableId) (topic : String) (w : Window) :
    ∃ b, (r.putWindow t topic w).get? t' = some b := by
  rw [get?_putWindow]
  split
  · exact ⟨_, rfl⟩
  · exact h

@[simp]
theorem tablesOf_set (r : TableRegistry) (t : TableId) (b : TableBuffer) (topic : String) :
    (r.set t b).tablesOf topic = r.tablesOf topic := rfl

theorem mem_tablesOf_putWindow {r : TableRegistry} {t t' : TableId} {topic topic' : String}
    {w : Window} :
    t' ∈ (r.putWindow t topic w).tablesOf topic' ↔
      t' ∈ r.tablesOf topic' ∨ (r.get? t = none ∧ topic' = topic ∧ t' = t) := by
  show t' ∈ (r.register t topic).tablesOf topic' ↔ _
  simp only [register]
  cases h : r.tables.get? t with
  | some b => simp [SortedMap.contains, get?, h]
  | none =>
    simp only [SortedMap.contains, h, Option.isSome_none, Bool.false_eq_true, if_false, tablesOf,
      SortedMap.getD_insert, get?, true_and]
    split
    · rename_i same
      subst same
      simp
    · rename_i other
      simp [other]

theorem getOrNew_of_get? {r : TableRegistry} {t : TableId} {b : TableBuffer} (topic : String)
    (h : r.get? t = some b) : r.getOrNew t topic = b := by
  unfold get? at h
  simp [getOrNew, SortedMap.getD, h]

theorem getOrNew_of_none {r : TableRegistry} {t : TableId} (topic : String)
    (h : r.get? t = none) : r.getOrNew t topic = .new t topic := by
  unfold get? at h
  simp [getOrNew, SortedMap.getD, h]

/-- Putting a window in place changes nothing if and only if it is there. -/
theorem putWindow_eq_self_iff {r : TableRegistry} {t : TableId} {topic : String}
    {w : Window} : r.putWindow t topic w = r ↔ ∃ b, r.get? t = some b ∧ b.window = some w := by
  constructor
  · intro same
    have there := r.get?_putWindow_self t topic w
    rw [same] at there
    exact ⟨_, there, rfl⟩
  · rintro ⟨b, hb, hw⟩
    have registered : r.register t topic = r := by
      have there : r.tables.contains t := by
        rw [SortedMap.contains, ← get?, hb]
        rfl
      rw [register, if_pos there]
    have kept : b.setWindow w = b := by rw [TableBuffer.setWindow, ← hw]
    rw [putWindow, registered, getOrNew_of_get? topic hb, kept, set, SortedMap.insert_of_get? hb]

/-- Every buffer stands under the name of its table. -/
def Named (r : TableRegistry) : Prop := ∀ t b, r.get? t = some b → b.tableId = t

theorem Named.set {r : TableRegistry} (h : r.Named) (b : TableBuffer) :
    (r.set b.tableId b).Named := by
  intro t b' hb
  rw [get?_set] at hb
  split at hb
  · rename_i same
    rw [← Option.some.inj hb, same]
  · exact h t b' hb

theorem Named.getOrNew {r : TableRegistry} (h : r.Named) (t : TableId) (topic : String) :
    (r.getOrNew t topic).tableId = t := by
  cases hb : r.get? t with
  | none =>
    rw [getOrNew_of_none topic hb]
    rfl
  | some b =>
    rw [getOrNew_of_get? topic hb]
    exact h t b hb

theorem Named.putWindow {r : TableRegistry} (h : r.Named) (t : TableId) (topic : String)
    (w : Window) : (r.putWindow t topic w).Named := by
  intro t' b hb
  rw [get?_putWindow] at hb
  split at hb
  · rename_i same
    rw [← Option.some.inj hb, same]
    exact h.getOrNew t topic
  · exact h t' b hb

/-- No row of the table is buffered. -/
def Vacant (r : TableRegistry) (t : TableId) : Prop := ∀ b, r.get? t = some b → b.isEmpty

instance (r : TableRegistry) (t : TableId) : Decidable (r.Vacant t) :=
  decidable_of_iff ((r.get? t).all TableBuffer.isEmpty = true) (by simp [Vacant, Option.all_eq_true])

/-- The message is in the window of the table. -/
def Buffers (r : TableRegistry) (t : TableId) (m : Message) : Prop :=
  ∃ b w, r.get? t = some b ∧ b.window = some w ∧ m ∈ w.lastMessages

/-- A message in a buffer was there before, or it is in the window that was put in. -/
theorem Buffers.of_putWindow {r : TableRegistry} {t t' : TableId} {topic : String} {w : Window}
    {m : Message} (h : (r.putWindow t topic w).Buffers t' m) :
    r.Buffers t' m ∨ (t' = t ∧ m ∈ w.lastMessages) := by
  obtain ⟨b, w', hb, hw, mem⟩ := h
  rw [get?_putWindow] at hb
  split at hb
  · rename_i same
    obtain rfl := Option.some.inj hb
    obtain rfl := Option.some.inj hw
    exact .inr ⟨same, mem⟩
  · exact .inl ⟨b, w', hb, hw, mem⟩

theorem Vacant.not_holds {r : TableRegistry} {t : TableId} (h : r.Vacant t) {b : TableBuffer}
    {w : Window} : ¬ r.Holds t b w := by
  rintro ⟨buffer, window, filled⟩
  have := h b buffer
  simp [TableBuffer.isEmpty, window, filled] at this

/-! ## What is buffered -/

/-- The window of a table, if it has rows. -/
def content (r : TableRegistry) (t : TableId) : Option Window :=
  ((r.get? t).bind TableBuffer.window).filter fun w => !w.isEmpty

theorem content_eq_some_iff {r : TableRegistry} {t : TableId} {w : Window} :
    r.content t = some w ↔ ∃ b, r.Holds t b w := by
  simp only [content]
  rw [Option.filter_eq_some_iff, Option.bind_eq_some_iff]
  constructor
  · rintro ⟨⟨b, hb, hw⟩, filled⟩
    exact ⟨b, hb, hw, by simpa using filled⟩
  · rintro ⟨b, hb, hw, filled⟩
    exact ⟨⟨b, hb, hw⟩, by simpa using filled⟩

theorem Holds.content {r : TableRegistry} {t : TableId} {b : TableBuffer} {w : Window}
    (h : r.Holds t b w) : r.content t = some w :=
  content_eq_some_iff.2 ⟨b, h⟩

theorem content_congr {r r' : TableRegistry} {t : TableId} (h : r'.get? t = r.get? t) :
    r'.content t = r.content t := by
  simp only [content]
  rw [h]

theorem content_of_get? {r : TableRegistry} {t : TableId} {b : TableBuffer}
    (h : r.get? t = some b) : r.content t = b.window.filter fun w => !w.isEmpty := by
  simp only [content]
  rw [h, Option.bind_some]

theorem Vacant.content {r : TableRegistry} {t : TableId} (h : r.Vacant t) : r.content t = none := by
  cases hc : r.content t with
  | none => rfl
  | some w =>
    obtain ⟨b, holds⟩ := content_eq_some_iff.1 hc
    exact absurd holds h.not_holds

theorem content_getOrNew {r : TableRegistry} {t : TableId} {topic : String}
    (h : (r.getOrNew t topic).isEmpty) : r.content t = none := by
  refine Vacant.content fun b hb => ?_
  rwa [getOrNew_of_get? topic hb] at h

theorem content_set (r : TableRegistry) {t t' : TableId} (b : TableBuffer) (h : t' = t) :
    (r.set t' b).content t = b.window.filter fun w => !w.isEmpty := by
  refine content_of_get? ?_
  rw [get?_set, if_pos h.symm]

theorem content_putWindow_of_ne {r : TableRegistry} {t t' : TableId} {topic : String} {w : Window}
    (ne : t' ≠ t) : (r.putWindow t topic w).content t' = r.content t' :=
  content_congr (r.get?_putWindow_of_ne topic w ne)

theorem content_putWindow_self (r : TableRegistry) (t : TableId) (topic : String) (w : Window) :
    (r.putWindow t topic w).content t = if w.isEmpty then none else some w := by
  rw [content_of_get? (r.get?_putWindow_self t topic w)]
  cases empty : w.isEmpty <;> simp [TableBuffer.setWindow, empty]

end TableRegistry

end ChangeCapture

import ChangeCapture.Proofs.Engine.Flush
import ChangeCapture.Proofs.Store.Append
import ChangeCapture.Trial.Store

/-!
# What a store with planned failures does

A write that fails and a question about a table leave the tables as they are
(`TrialStore.store_probes`).  A write that does not fail merges or appends the
rows of its window, and leaves all other tables alone.
-/

namespace ChangeCapture

namespace Store

theorem table_of_absent {s : Store} {p : TablePath} (absent : s.tables.get? p = none) :
    s.table p = .empty := by
  rw [table, SortedMap.getD, absent]
  rfl

theorem table_merge_self (s : Store) (w : Window) :
    (s.merge w).table w.path = (s.table w.path).merge w := by
  show (s.tables.insert w.path _).getD w.path .empty = _
  rw [SortedMap.getD_insert, if_pos rfl]

theorem table_merge_of_ne (s : Store) {w : Window} {p : TablePath} (ne : p ≠ w.path) :
    (s.merge w).table p = s.table p := by
  show (s.tables.insert w.path _).getD p .empty = _
  rw [SortedMap.getD_insert, if_neg ne]
  rfl

theorem columns_describe (s : Store) (p : TablePath) :
    (s.describe p).columns = (s.table p).columns := by
  simp only [describe, table, SortedMap.getD]
  cases s.tables.get? p <;> rfl

end Store

namespace TrialStore

open Destination (Probe Probes Tells)

theorem store_takeFailure {s s' : TrialStore} {table : String}
    (h : s.takeFailure? table = some s') : s'.store = s.store := by
  unfold takeFailure? at h
  simp only at h
  split at h
  · obtain rfl := Option.some.inj h
    rfl
  · split at h
    · obtain rfl := Option.some.inj h
      rfl
    · cases h

theorem merge_cases {s s' : TrialStore} {w : Window} {outcome : Outcome Bool}
    (h : s.merge w = (outcome, s')) :
    (∃ f, outcome = .error f) ∧ s'.store = s.store ∨
      (∃ b, outcome = .ok b) ∧ s'.store = s.store.merge w := by
  unfold merge at h
  simp only at h
  split at h
  · rename_i taken
    have same := store_takeFailure taken
    obtain ⟨rfl, rfl⟩ := Prod.mk.inj h
    exact .inl ⟨⟨_, rfl⟩, same⟩
  · obtain ⟨rfl, rfl⟩ := Prod.mk.inj h
    exact .inr ⟨⟨_, rfl⟩, rfl⟩

theorem append_cases {s s' : TrialStore} {w : Window} {outcome : Outcome Unit}
    (h : s.append w = (outcome, s')) :
    (∃ f, outcome = .error f) ∧ s'.store = s.store ∨
      outcome = .ok () ∧ s.store.append w = .ok s'.store := by
  unfold append at h
  simp only at h
  split at h
  · rename_i taken
    have same := store_takeFailure taken
    obtain ⟨rfl, rfl⟩ := Prod.mk.inj h
    exact .inl ⟨⟨_, rfl⟩, same⟩
  · split at h
    · rename_i appended
      obtain ⟨rfl, rfl⟩ := Prod.mk.inj h
      exact .inr ⟨rfl, appended⟩
    · obtain ⟨rfl, rfl⟩ := Prod.mk.inj h
      exact .inl ⟨⟨_, rfl⟩, rfl⟩

/-! ## Writes -/

/-- How a write ends, and with which tables. -/
theorem write_cases {s s' : TrialStore} {w : Window} {outcome : Outcome Bool}
    (h : Destination.write s w = (outcome, s')) :
    (∃ f, outcome = .error f) ∧ s'.store = s.store ∨
      (∃ b, outcome = .ok b) ∧ match w.mode with
        | .replication => s'.store = s.store.merge w
        | .history => s.store.append w = .ok s'.store := by
  cases hm : w.mode with
  | replication =>
    refine merge_cases ?_
    rw [← h, Destination.write, hm]
    rfl
  | history =>
    cases ha : s.append w with
    | mk appended s'' =>
      have written : Destination.write s w = (appended.map fun () => true, s'') := by
        rw [Destination.write, hm]
        show ((s.append w).1.map _, (s.append w).2) = _
        rw [ha]
      obtain ⟨rfl, rfl⟩ := Prod.mk.inj (h.symm.trans written)
      rcases append_cases ha with ⟨⟨f, rfl⟩, same⟩ | ⟨rfl, taken⟩
      · exact .inl ⟨⟨f, rfl⟩, same⟩
      · exact .inr ⟨⟨true, rfl⟩, taken⟩

theorem store_write {s s' : TrialStore} {w : Window} {b : Bool} (mode : w.mode = .replication)
    (h : Destination.write s w = (.ok b, s')) : s'.store = s.store.merge w := by
  rcases write_cases h with ⟨⟨f, hf⟩, -⟩ | ⟨-, written⟩
  · cases hf
  · rwa [mode] at written

/-- A write leaves all tables but its own alone. -/
theorem table_write_of_ne {s s' : TrialStore} {w : Window} {b : Bool} {p : TablePath}
    (h : Destination.write s w = (.ok b, s')) (ne : p ≠ w.path) :
    s'.store.table p = s.store.table p := by
  rcases write_cases h with ⟨⟨f, hf⟩, -⟩ | ⟨-, written⟩
  · cases hf
  · cases hm : w.mode with
    | replication =>
      rw [hm] at written
      rw [written, Store.table_merge_of_ne s.store ne]
    | history =>
      rw [hm] at written
      exact Store.table_append_of_ne written ne

/-! ## Probes -/

theorem store_probes {s s' : TrialStore} {w : Window} (h : Probes w s s') : s'.store = s.store := by
  refine h.eq_of_invariant (f := TrialStore.store) fun {d d'} probe => ?_
  cases probe with
  | describe p => rfl
  | fail h =>
    rcases write_cases h with ⟨-, same⟩ | ⟨⟨b, hb⟩, -⟩
    · exact same
    · cases hb

/-- What the store tells are the columns of the table. -/
theorem known_of_tells {s s' : TrialStore} {w : Window} {known : ColumnRegistry}
    (h : Tells s w known s') : known = (s.store.table w.path).columns := by
  obtain ⟨asked, description, told, before, tells, rfl, -⟩ := h
  obtain ⟨h1, -⟩ := Prod.mk.inj tells
  obtain rfl := Except.ok.inj h1
  rw [Store.columns_describe, store_probes before]

end TrialStore

end ChangeCapture

import ChangeCapture.Proofs.Batch
import ChangeCapture.Proofs.SortedMap
import ChangeCapture.Store.Basic

/-!
# What an append does

An append that does not fail puts the rows of its window, all of them in order,
after those of its table (`Store.append_ok`), and leaves all other tables alone.
-/

namespace ChangeCapture

namespace Store

theorem gathers_packing (limit : Nat) : (packing limit).Gathers :=
  ⟨rfl, fun _ _ => rfl⟩

/-- The store after an append that does not fail. -/
theorem append_ok {s s' : Store} {w : Window} (h : s.append w = .ok s') :
    ∃ batches, s' =
      { s with
        tables := s.tables.insert w.path ((s.table w.path).append w w.rows)
        appends := s.appends + 1
        appendBatches := s.appendBatches + batches } := by
  unfold append at h
  split at h
  · cases h
  · rename_i batches packed
    rw [Batch.items_pack (gathers_packing s.batchLimit) packed] at h
    exact ⟨batches.length, (Except.ok.inj h).symm⟩

theorem table_append_self {s s' : Store} {w : Window} (h : s.append w = .ok s') :
    s'.table w.path = (s.table w.path).append w w.rows := by
  obtain ⟨batches, rfl⟩ := append_ok h
  show (s.tables.insert w.path _).getD w.path .empty = _
  rw [SortedMap.getD_insert, if_pos rfl]

theorem table_append_of_ne {s s' : Store} {w : Window} (h : s.append w = .ok s') {p : TablePath}
    (ne : p ≠ w.path) : s'.table p = s.table p := by
  obtain ⟨batches, rfl⟩ := append_ok h
  show (s.tables.insert w.path _).getD p .empty = _
  rw [SortedMap.getD_insert, if_neg ne]
  rfl

/-- An append that does not fail puts the rows of the window after those of its table. -/
theorem appended_append {s s' : Store} {w : Window} (h : s.append w = .ok s') :
    (s'.table w.path).appended = (s.table w.path).appended ++ w.rows := by
  rw [table_append_self h]
  rfl

end Store

end ChangeCapture

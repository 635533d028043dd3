import ChangeCapture.Proofs.Column.Keeping
import ChangeCapture.Proofs.Store.Merge
import ChangeCapture.Proofs.Trial.Store
import ChangeCapture.Trial.Sample
import Mathlib.Logic.Relation

/-!
# The schema of the store

The columns of a stored table grow at the end.  A column comes with a kind and
keeps it, whatever windows are written later, and no merged row has a value
outside of the columns (`Store.schema_of_writes`).

What one write does to a table is one of three things: nothing, a merge or an
append (`Store.Write.table_cases`).  Both a merge and an append add the columns of
their window that have a kind, so what is said of `ColumnRegistry.addAll` carries
the invariant.
-/

namespace ChangeCapture

/-! ## Tables -/

namespace StoredTable

/-- Every column has a kind and a name of its own, and every merged value has a column. -/
structure Regular (t : StoredTable) : Prop extends t.Sound where
  /-- The names of the columns are distinct, and none is empty. -/
  wellFormed : t.columns.WellFormed

theorem regular_empty : empty.Regular := ⟨sound_empty, ColumnRegistry.wellFormed_empty⟩

theorem columns_prefix_evolve (t : StoredTable) (w : Window) :
    t.columns.columns <+: (t.evolve w).columns.columns :=
  ColumnRegistry.prefix_addAll t.columns w.columns.writable

theorem wellFormed_evolve {t : StoredTable} (h : t.columns.WellFormed) (w : Window) :
    (t.evolve w).columns.WellFormed :=
  (ColumnRegistry.keeps_addAll (K := fun _ _ => False) t.columns _).wellFormed h

/-- A column that is there for a stored value is there after columns were added. -/
theorem lists_evolve {t : StoredTable} (h : t.Sound) (w : Window) {key n : String} {v : Json}
    (stored : t.value? key n = some v) : ∃ c, (t.evolve w).columns.get? n = some c := by
  obtain ⟨c, hc⟩ := h.admits key n v stored
  obtain ⟨c', hc', -⟩ := ColumnRegistry.grows_addAll t.columns w.columns.writable n c hc
  exact ⟨c', hc'⟩

theorem Regular.merge {t : StoredTable} (h : t.Regular) {w : Window}
    (columns : w.columns.WellFormed) : (t.merge w).Regular := by
  refine ⟨⟨typed_merge h.typed w, ?_⟩, wellFormed_evolve h.wellFormed w⟩
  intro key n v hv
  rcases value?_merge_cases hv with stored | ⟨-, written⟩
  · exact lists_evolve h.toSound w stored
  · obtain ⟨c, mem, rfl⟩ := List.mem_map.1 written
    exact ColumnRegistry.get?_addAll_of_mem mem (columns.named c (List.mem_filter.1 mem).1)

/-- An append adds the columns of its window as a merge does, and merges no row. -/
theorem Regular.append {t : StoredTable} (h : t.Regular) (w : Window) (rows : List Row) :
    (t.append w rows).Regular :=
  ⟨⟨typed_merge h.typed w, fun _ _ _ stored => lists_evolve h.toSound w stored⟩,
    wellFormed_evolve h.wellFormed w⟩

/-- The value that stands in a column of a row that a merge leaves: the stored one, or one that is
not the placeholder. -/
theorem value?_merge_of_stored {t : StoredTable} {w : Window} {key n : String} {u : Json}
    {row : Row} (stored : t.value? key n = some u) (stays : (t.merge w).rows.get? key = some row) :
    ∃ v, row.get? n = some v ∧ (v = u ∨ v.isPlaceholder = false) := by
  have value : (t.merge w).value? key n = row.get? n := by rw [value?, stays, Option.bind_some]
  rw [← value]
  cases hk : w.keyed.get? key with
  | none =>
    rw [value?_merge_of_none t hk]
    exact ⟨u, stored, .inl rfl⟩
  | some buffered =>
    cases gone : buffered.isDeleted && !w.settings.softDelete with
    | true =>
      rw [get?_merge, hk] at stays
      simp [gone] at stays
    | false =>
      rw [value?_merge_of_some t hk gone, stored]
      split
      · cases hv : buffered.get? n with
        | none => exact ⟨u, Json.overlay_none _, .inl rfl⟩
        | some v =>
          cases plain : v.isPlaceholder with
          | true => exact ⟨u, by rw [Json.overlay_some, if_pos plain], .inl rfl⟩
          | false => exact ⟨v, Json.overlay_plain _ plain, .inr plain⟩
      · exact ⟨u, rfl, .inl rfl⟩

end StoredTable

/-! ## Writes -/

namespace Store

/-- A window is merged into the store or appended to it.  No column of the window has an empty
name, and no two of them have the same. -/
inductive Write (s : Store) : Store → Prop where
  /-- A merge. -/
  | merge (w : Window) (columns : w.columns.WellFormed) : Write s (Destination.merge s w).2
  /-- An append, which may fail. -/
  | append (w : Window) (columns : w.columns.WellFormed) : Write s (Destination.append s w).2

/-- Windows are merged and appended one after the other. -/
def Writes : Store → Store → Prop := Relation.ReflTransGen Write

/-- A write leaves a table as it is, merges a window into it, or appends rows of a window to it. -/
theorem Write.table_cases {s s' : Store} (h : Write s s') (p : TablePath) :
    s'.table p = s.table p ∨ ∃ w, w.columns.WellFormed ∧
      (s'.table p = (s.table p).merge w ∨ ∃ rows, s'.table p = (s.table p).append w rows) := by
  cases h with
  | merge w columns =>
    by_cases here : p = w.path
    · subst here
      exact .inr ⟨w, columns, .inl (table_merge_self s w)⟩
    · exact .inl (table_merge_of_ne s here)
  | append w columns =>
    show (Destination.append s w).2.table p = _ ∨ _
    simp only [Destination.append]
    cases appended : s.append w with
    | error f => exact .inl rfl
    | ok s' =>
      by_cases here : p = w.path
      · subst here
        exact .inr ⟨w, columns, .inr ⟨w.rows, table_append_self appended⟩⟩
      · exact .inl (table_append_of_ne appended here)

theorem Write.regular {s s' : Store} (h : Write s s') (p : TablePath)
    (before : (s.table p).Regular) : (s'.table p).Regular := by
  rcases h.table_cases p with same | ⟨w, columns, merged | ⟨rows, appended⟩⟩
  · rwa [same]
  · rw [merged]
    exact before.merge columns
  · rw [appended]
    exact before.append w rows

theorem Write.columns_prefix {s s' : Store} (h : Write s s') (p : TablePath) :
    (s.table p).columns.columns <+: (s'.table p).columns.columns := by
  rcases h.table_cases p with same | ⟨w, -, merged | ⟨rows, appended⟩⟩
  · rw [same]
  · rw [merged]
    exact StoredTable.columns_prefix_evolve _ w
  · rw [appended]
    exact StoredTable.columns_prefix_evolve _ w

theorem Writes.regular {s s' : Store} (h : s.Writes s') (p : TablePath)
    (before : (s.table p).Regular) : (s'.table p).Regular := by
  induction h with
  | refl => exact before
  | tail _ write ih => exact write.regular p ih

theorem Writes.columns_prefix {s s' : Store} (h : s.Writes s') (p : TablePath) :
    (s.table p).columns.columns <+: (s'.table p).columns.columns := by
  induction h with
  | refl => exact List.prefix_refl _
  | tail _ write ih => exact ih.trans (write.columns_prefix p)

/-- What is said of a table of the store, now and later. -/
structure Schema (s s' : Store) (p : TablePath) : Prop where
  /-- The names of the columns are distinct. -/
  distinct : (s'.table p).columns.names.Nodup
  /-- Every column has a kind. -/
  typed : (s'.table p).columns.Typed
  /-- The columns that were there before stand in front as they were. -/
  kept : (s.table p).columns.columns <+: (s'.table p).columns.columns
  /-- Every value of a merged row has a column. -/
  listed : ∀ key n v, (s'.table p).value? key n = some v →
    ∃ c, (s'.table p).columns.get? n = some c
  /-- A merge does not put the placeholder in place of a stored value. -/
  values : ∀ w key n u row, (s'.table p).value? key n = some u →
    ((Destination.merge s' w).2.table p).rows.get? key = some row →
      ∃ v, row.get? n = some v ∧ (v = u ∨ v.isPlaceholder = false)

/-- Columns of a stored table come with a kind and a name of their own and stay as they are,
whatever windows are written. -/
theorem schema_of_writes {limit : Nat} {s s' : Store} (first : (new limit).Writes s)
    (more : s.Writes s') (p : TablePath) : s.Schema s' p := by
  have start : ((new limit).table p).Regular := StoredTable.regular_empty
  have regular := Writes.regular (first.trans more) p start
  refine ⟨regular.wellFormed.distinct, regular.typed, more.columns_prefix p, regular.admits, ?_⟩
  intro w key n u row stored stays
  by_cases here : p = w.path
  · subst here
    have merged : (Destination.merge s' w).2.table w.path = (s'.table w.path).merge w :=
      table_merge_self s' w
    rw [merged] at stays
    exact StoredTable.value?_merge_of_stored stored stays
  · have other : (Destination.merge s' w).2.table p = s'.table p := table_merge_of_ne s' here
    rw [other] at stays
    unfold StoredTable.value? at stored
    rw [stays, Option.bind_some] at stored
    exact ⟨u, stored, .inl rfl⟩

/-- A window of people with one row. -/
def sampleWindow (columns : List Column) (fields : List (String × Json)) : Window :=
  let w := Window.new ⟨"public", "people"⟩ "people" .replication ⟨columns⟩ ["id"]
    (Sample.settings "people")
  w.insert "1" (.ofList fields) false

/-- A row is merged. -/
def sampleFirst : Store :=
  (Destination.merge (new 1000) (sampleWindow
    [.new "id" .integer, .new "name" .string] [("id", .int 1), ("name", .string "Ann")])).2

/-- The same row is merged with another kind of key, a name that was left out and a column without
a kind. -/
def sampleSecond : Store :=
  (Destination.merge sampleFirst (sampleWindow
    [.new "note" .invalid, .new "id" .string, .new "age" .integer, .new "name" .string]
    [("note", .null), ("id", .string "1"), ("age", .int 7),
      ("name", .string Json.unavailable)])).2

theorem schema_of_sampleWrites :
    (new 1000).Writes sampleFirst ∧ sampleFirst.Writes sampleSecond ∧
      sampleFirst.Schema sampleSecond ⟨"shop", "public", "people"⟩ :=
  have first : (new 1000).Writes sampleFirst := .single (.merge _ (by decide))
  have second : sampleFirst.Writes sampleSecond := .single (.merge _ (by decide))
  ⟨first, second, schema_of_writes first second _⟩

end Store

end ChangeCapture

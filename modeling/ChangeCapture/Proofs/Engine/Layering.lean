import ChangeCapture.Proofs.Engine.Hosting

/-!
# Buffered rows over stored rows

What a merge makes of a row depends on its stored values and on the buffered
ones only (`merged`).  A row whose buffered mark says that it is deleted goes
away with all its values, unless deletes are soft.  Any other row has the
buffered values over the stored ones.

This holds up to values that say nothing, as long as the window fits the table
(`Fits`): every value has a column.  Neither the saving of an event nor a merge
breaks that.
-/

namespace ChangeCapture

/-! ## Rows over rows -/

/-- What is buffered of a column of a row. -/
def onTop (w? : Option Window) (key n : String) : Option Json := (buffered w? key).bind (·.get? n)

@[simp]
theorem onTop_none (key n : String) : onTop none key n = none := rfl

@[simp]
theorem onTop_some (w : Window) (key n : String) : onTop (some w) key n = w.value? key n := rfl

theorem Window.value?_of_none {w : Window} {key : String} (h : w.keyed.get? key = none) :
    w.value? key = fun _ => none := by
  funext n
  rw [value?, h, Option.bind_none]

/-- Values of a row say that it goes away when they are merged. -/
def erases (s : TopicSettings) (above : String → Option Json) : Bool :=
  (above SystemColumn.deleted).any Json.isTrue && !s.softDelete

/-- The values of a row after others were merged over them. -/
def merged (s : TopicSettings) (below above : String → Option Json) : String → Option Json :=
  if erases s above then fun _ => none else fun n => Json.overlay (below n) (above n)

variable {s : TopicSettings} {below above : String → Option Json}

theorem merged_of_erases (h : erases s above) (below : String → Option Json) :
    merged s below above = fun _ => none := by
  rw [merged, if_pos h]

theorem merged_of_stays (h : erases s above = false) (below : String → Option Json) :
    merged s below above = fun n => Json.overlay (below n) (above n) := by
  rw [merged, h, if_neg Bool.false_ne_true]

theorem merged_none (s : TopicSettings) (below : String → Option Json) :
    merged s below (fun _ => none) = below := by
  rw [merged_of_stays rfl]
  funext n
  exact Json.overlay_none _

/-- What is merged again changes nothing. -/
theorem merged_merged (s : TopicSettings) (below above : String → Option Json) :
    merged s (merged s below above) above = merged s below above := by
  cases h : erases s above with
  | true => rw [merged_of_erases h, merged_of_erases h]
  | false =>
    rw [merged_of_stays h, merged_of_stays h]
    funext n
    exact Json.overlay_overlay_self _ _

/-- Values that are alike stay alike when the same ones are merged over them. -/
theorem alike_merged {below' : String → Option Json} {n : String}
    (h : Json.Alike (below n) (below' n)) (s : TopicSettings) (above : String → Option Json) :
    Json.Alike (merged s below above n) (merged s below' above n) := by
  cases he : erases s above with
  | true =>
    rw [merged_of_erases he, merged_of_erases he]
    exact .refl none
  | false =>
    rw [merged_of_stays he, merged_of_stays he]
    exact h.overlay _

/-! ## Windows that fit a table -/

/-- Every value of a column in a scope has a column, in the window and in the table. -/
structure Fits (s : TopicSettings) (scope : String → Prop) (w? : Option Window) (t : StoredTable) :
    Prop where
  /-- The window keeps one row for each key. -/
  keyed : ∀ w, w? = some w → w.Keyed s
  /-- Every buffered value has a column, whose name is in normal form. -/
  window : ∀ w, w? = some w → ∀ key n v, scope n → w.value? key n = some v →
    n ≠ "" ∧ Unicode.lowercase n = n ∧ w.columns.Admits n v
  /-- Every stored column has a kind. -/
  typed : t.columns.Typed
  /-- Every stored value has a column. -/
  stored : ∀ key n v, scope n → t.value? key n = some v → ∃ c, t.columns.get? n = some c

namespace Fits

variable {scope : String → Prop} {t : StoredTable}

theorem of_sound (s : TopicSettings) (scope : String → Prop) (h : t.Sound) :
    Fits s scope none t where
  keyed := by
    intro w h
    cases h
  window := by
    intro w h
    cases h
  typed := h.typed
  stored := fun key n v _ => h.admits key n v

theorem drop {w? : Option Window} (h : Fits s scope w? t) : Fits s scope none t where
  keyed := by
    intro w h
    cases h
  window := by
    intro w h
    cases h
  typed := h.typed
  stored := h.stored

theorem extend {w w' : Window} (h : Fits s scope (some w) t) (extends' : w'.Extends w) :
    Fits s scope (some w') t where
  keyed := by
    rintro _ ⟨⟩
    rw [Window.Keyed, extends'.settings, extends'.mode]
    exact h.keyed w rfl
  window := by
    rintro _ ⟨⟩ key n v inScope hv
    unfold Window.value? at hv
    rw [extends'.rows] at hv
    obtain ⟨named, lower, admits⟩ := h.window w rfl key n v inScope hv
    exact ⟨named, lower, admits.mono extends'.grows⟩
  typed := h.typed
  stored := h.stored

theorem extends_adopt {w : Window} (h : Fits s scope (some w) t) :
    (w.adopt t.columns).Extends w :=
  ⟨rfl, rfl, rfl, ColumnRegistry.grows_adopt w.columns h.typed⟩

theorem adopt {w : Window} (h : Fits s scope (some w) t) :
    Fits s scope (some (w.adopt t.columns)) t :=
  h.extend h.extends_adopt

theorem lay {w? : Option Window} {e : RowEvent} {key : String} {w : Window}
    (h : Fits s scope w? t) (lays : Lays s w? e key w) (typed : KindHints.Typed e.hints)
    (named : ∀ n v, scope n → e.savedRow.get? n = some v → n ≠ "") : Fits s scope (some w) t where
  keyed := by
    rintro _ ⟨⟩
    exact lays.keyed
  window := by
    rintro _ ⟨⟩ k n v inScope hv
    have old : onTop w? k n = some v → n ≠ "" ∧ Unicode.lowercase n = n ∧ w.columns.Admits n v := by
      intro hv
      cases hw : w? with
      | none =>
        rw [hw] at hv
        cases hv
      | some w' =>
        rw [hw] at hv
        obtain ⟨named, lower, admits⟩ := h.window w' hw k n v inScope hv
        exact ⟨named, lower, admits.mono (lays.keeps w' hw)⟩
    rw [lays.value?] at hv
    split at hv
    · rcases Json.mem_overlay hv with hv | hv
      · exact old hv
      · have named := named n v inScope hv
        exact ⟨named, lays.admits typed n v named hv⟩
    · exact old hv
  typed := h.typed
  stored := h.stored

section Merging

variable {w : Window}

theorem erases_value? (h : Fits s scope (some w) t) {key : String} {row : Row}
    (hk : w.keyed.get? key = some row) :
    erases s (w.value? key) = (row.isDeleted && !w.settings.softDelete) := by
  rw [erases, Window.value?, hk, (h.keyed w rfl).1]
  rfl

/-- A row whose buffered mark says so goes away. -/
theorem get?_merge_of_erases (h : Fits s scope (some w) t) {key : String}
    (gone : erases s (w.value? key)) :
    (t.merge (w.adopt t.columns)).rows.get? key = none := by
  have same : (w.adopt t.columns).settings = w.settings := rfl
  rw [StoredTable.get?_merge]
  cases hk : (w.adopt t.columns).keyed.get? key with
  | none =>
    rw [Window.value?_of_none (w := w) hk] at gone
    cases gone
  | some row =>
    rw [h.erases_value? hk] at gone
    simp only [same, gone, if_true]

/-- What a merge makes of a row. -/
theorem value?_merge (h : Fits s scope (some w) t) (key : String) {n : String} (inScope : scope n) :
    Json.Alike ((t.merge (w.adopt t.columns)).value? key n)
      (merged s (t.value? key) (w.value? key) n) := by
  cases hk : w.keyed.get? key with
  | none =>
    rw [StoredTable.value?_merge_of_none (w := w.adopt t.columns) t hk,
      Window.value?_of_none hk, merged_none]
    exact .refl _
  | some row =>
    have mark := h.erases_value? hk
    cases gone : row.isDeleted && !w.settings.softDelete with
    | true =>
      rw [merged_of_erases (mark.trans gone), StoredTable.value?,
        h.get?_merge_of_erases (mark.trans gone)]
      exact .refl none
    | false =>
      rw [merged_of_stays (mark.trans gone)]
      exact StoredTable.value?_merge h.typed (fun u => h.stored key n u inScope)
        (fun v hv => (h.window w rfl key n v inScope hv).2) hk gone

theorem remerge (h : Fits s scope (some w) t) :
    Fits s scope (some (w.adopt t.columns)) (t.merge (w.adopt t.columns)) where
  keyed := h.adopt.keyed
  window := h.adopt.window
  typed := StoredTable.typed_merge h.typed _
  stored := fun key n _ inScope =>
    StoredTable.admits_merge (fun u => h.stored key n u inScope)
      fun u hu => (h.window w rfl key n u inScope hu).1

theorem merge (h : Fits s scope (some w) t) : Fits s scope none (t.merge (w.adopt t.columns)) :=
  h.remerge.drop

end Merging

end Fits

end ChangeCapture

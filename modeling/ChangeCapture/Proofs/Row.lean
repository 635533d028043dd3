import ChangeCapture.Proofs.SortedMap
import ChangeCapture.Table.Window

/-!
# Rows over rows

A value goes over an earlier value unless it is the placeholder (`Json.overlay`).
A row that is put over an earlier row of its key does so column by column
(`Row.get?_carryOver`).

To lay values over each other is associative, and to lay one value twice is to
lay it once.  Two values are alike if they are the same or if both say nothing
(`Json.Alike`); what is laid over them leaves them alike.
-/

namespace ChangeCapture

namespace Json

/-! ## Values over values -/

/-- The value of a column after a later row, if the column has a value there, went over it. -/
def overlay : Option Json → Option Json → Option Json
  | earlier, none => earlier
  | none, some v => some v
  | some earlier, some v => if v.isPlaceholder then some earlier else some v

@[simp]
theorem overlay_none (x : Option Json) : overlay x none = x := by
  cases x <;> rfl

@[simp]
theorem none_overlay (x : Option Json) : overlay none x = x := by
  cases x <;> rfl

theorem overlay_some (u v : Json) :
    overlay (some u) (some v) = if v.isPlaceholder then some u else some v := rfl

theorem overlay_plain (x : Option Json) {v : Json} (h : v.isPlaceholder = false) :
    overlay x (some v) = some v := by
  cases x with
  | none => rfl
  | some u => simp [overlay_some, h]

theorem overlay_assoc (x y z : Option Json) :
    overlay (overlay x y) z = overlay x (overlay y z) := by
  cases z with
  | none => simp
  | some v =>
    cases y with
    | none => simp
    | some u =>
      cases plain : v.isPlaceholder with
      | false => simp [overlay_plain, plain]
      | true =>
        have under : ∀ u, overlay (some u) (some v) = some u := by
          intro u
          rw [overlay_some, if_pos plain]
        rw [under]
        cases x with
        | none => rw [none_overlay, under]
        | some w =>
          rw [overlay_some]
          split
          · rw [under]
          · rw [under]

theorem overlay_self (x : Option Json) : overlay x x = x := by
  cases x with
  | none => rfl
  | some v => simp [overlay_some]

theorem overlay_overlay_self (x y : Option Json) : overlay (overlay x y) y = overlay x y := by
  rw [overlay_assoc, overlay_self]

theorem mem_overlay {x y : Option Json} {v : Json} (h : overlay x y = some v) :
    x = some v ∨ y = some v := by
  cases y with
  | none => exact .inl (by rwa [overlay_none] at h)
  | some u =>
    cases x with
    | none => exact .inr h
    | some w =>
      rw [overlay_some] at h
      split at h
      · exact .inl h
      · exact .inr h

/-! ## Values that say nothing -/

/-- Whether a value says nothing: null, or the placeholder. -/
def isBlank (v : Json) : Bool := v.isNull || v.isPlaceholder

/-- There is no value, or it says nothing. -/
def Blank (x : Option Json) : Prop := ∀ v, x = some v → v.isBlank

theorem isBlank_of_isPlaceholder {v : Json} (h : v.isPlaceholder) : v.isBlank := by
  rw [isBlank, h, Bool.or_true]

theorem blank_none : Blank none := by
  intro v h
  cases h

/-- The values are the same, or both say nothing. -/
def Alike (x y : Option Json) : Prop := x = y ∨ Blank x ∧ Blank y

theorem Alike.refl (x : Option Json) : Alike x x := .inl rfl

theorem Alike.symm {x y : Option Json} (h : Alike x y) : Alike y x := by
  rcases h with rfl | ⟨hx, hy⟩
  · exact .refl x
  · exact .inr ⟨hy, hx⟩

theorem Alike.blank {x y : Option Json} (h : Alike x y) (hx : Blank x) : Blank y := by
  rcases h with rfl | ⟨-, hy⟩
  · exact hx
  · exact hy

theorem Alike.trans {x y z : Option Json} (h : Alike x y) (h' : Alike y z) : Alike x z := by
  rcases h with rfl | ⟨hx, hy⟩
  · exact h'
  · exact .inr ⟨hx, h'.blank hy⟩

/-- A value that says something is alike to itself only. -/
theorem Alike.eq_some {x : Option Json} {v : Json} (h : Alike x (some v))
    (full : v.isBlank = false) : x = some v := by
  rcases h with rfl | ⟨-, hv⟩
  · rfl
  · simp [hv v rfl] at full

theorem blank_overlay {x y : Option Json} (hx : Blank x) (hy : Blank y) : Blank (overlay x y) := by
  intro v h
  rcases mem_overlay h with h | h
  · exact hx v h
  · exact hy v h

theorem Alike.overlay {x y : Option Json} (h : Alike x y) (z : Option Json) :
    Alike (overlay x z) (overlay y z) := by
  rcases h with rfl | ⟨hx, hy⟩
  · exact .refl _
  · cases z with
    | none =>
      rw [overlay_none, overlay_none]
      exact .inr ⟨hx, hy⟩
    | some v =>
      cases plain : v.isPlaceholder with
      | false =>
        rw [overlay_plain x plain, overlay_plain y plain]
        exact .refl _
      | true =>
        have hv : Blank (some v) := by
          rintro u ⟨⟩
          exact isBlank_of_isPlaceholder plain
        exact .inr ⟨blank_overlay hx hv, blank_overlay hy hv⟩

end Json

/-! ## Rows -/

namespace Row

theorem get?_carry (previous : Row) (e : String × Json) (n : String) :
    (previous.carry e).get? n =
      if n = e.1 then Json.overlay (previous.get? n) (some e.2) else previous.get? n := by
  unfold carry SortedMap.contains
  by_cases same : n = e.1
  · subst same
    cases h : previous.get? e.1 with
    | none => simp
    | some v =>
      cases plain : e.2.isPlaceholder <;> simp [Json.overlay, plain, h]
  · rw [if_neg same]
    split
    · rfl
    · exact SortedMap.get?_insert_of_ne _ _ same

theorem get?_foldl_carry {entries : List (String × Json)} (sorted : Entries.Sorted entries)
    (previous : Row) (n : String) :
    (entries.foldl carry previous).get? n =
      Json.overlay (previous.get? n) (Entries.get? n entries) := by
  induction entries generalizing previous with
  | nil => simp [Entries.get?]
  | cons e rest ih =>
    have parts := List.pairwise_cons.1 sorted
    rw [List.foldl_cons, ih parts.2, get?_carry, Entries.get?_cons]
    by_cases same : n = e.1
    · subst same
      rw [Entries.get?_eq_none_of_lt parts.1]
      simp
    · simp [same]

/-- A row goes over an earlier one column by column. -/
theorem get?_carryOver (previous row : Row) (n : String) :
    (previous.carryOver row).get? n = Json.overlay (previous.get? n) (row.get? n) :=
  get?_foldl_carry row.sorted previous n

end Row

end ChangeCapture

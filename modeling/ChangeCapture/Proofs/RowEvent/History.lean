import ChangeCapture.Proofs.RowEvent.Columns
import Mathlib.Data.List.Induction

/-!
# Histories of rows

The events of a row, in the order in which they were saved.  The last of them
tells whether the row is still there.  A column of the row ends with the last
value that an event carries for it (`RowEvent.settled`), which is what the rows
of the events come to when they are laid over each other
(`RowEvent.layered_of_settled`).
-/

namespace ChangeCapture.RowEvent

/-- Whether the row of the event is saved under a key. -/
def hasKey (e : RowEvent) (key : String) : Bool :=
  match e.savedKey with
  | .ok k => k == key
  | .error _ => false

/-- Whether the event deletes its row for good. -/
def isHardDelete (e : RowEvent) (s : TopicSettings) : Bool := e.isDelete && !s.softDelete

/-- The value that an event carries for a column, by the normal form of its name.  The placeholder
is no value. -/
def carried? (e : RowEvent) (n : String) : Option Json :=
  (e.value? n).filter fun v => !v.standsForUnavailable

/-- The events of a key. -/
def ofKey (events : List RowEvent) (key : String) : List RowEvent :=
  events.filter (·.hasKey key)

/-- The last value that the events carry for a column. -/
def settled (events : List RowEvent) (n : String) : Option Json :=
  (events.filterMap (·.carried? n)).getLast?

/-- The values of a column in the rows of the events, laid over each other. -/
def layered (events : List RowEvent) (n : String) : Option Json :=
  events.foldl (fun x e => Json.overlay x (e.savedRow.get? n)) none

/-- The row is there after the events: there are some, and the last one does not delete it for
good. -/
def Present (s : TopicSettings) (events : List RowEvent) : Prop :=
  ∃ e, events.getLast? = some e ∧ e.isHardDelete s = false

/-- No event deletes the row for good. -/
def Lasting (s : TopicSettings) (events : List RowEvent) : Prop :=
  ∀ e ∈ events, e.isHardDelete s = false

theorem hasKey_iff {e : RowEvent} {key : String} : e.hasKey key ↔ e.savedKey = .ok key := by
  simp only [hasKey]
  cases e.savedKey with
  | error f => simp
  | ok k => simp

theorem ofKey_append (events more : List RowEvent) (key : String) :
    ofKey (events ++ more) key = ofKey events key ++ ofKey more key :=
  List.filter_append events more

theorem ofKey_append_self {events : List RowEvent} {e : RowEvent} {key : String}
    (h : e.savedKey = .ok key) : ofKey (events ++ [e]) key = ofKey events key ++ [e] := by
  simp only [ofKey]
  simp [List.filter_append, hasKey_iff.2 h]

theorem ofKey_append_other {events : List RowEvent} {e : RowEvent} {key key' : String}
    (h : e.savedKey = .ok key) (ne : key' ≠ key) :
    ofKey (events ++ [e]) key' = ofKey events key' := by
  have other : ¬ e.hasKey key' := by
    rw [hasKey_iff, h]
    exact fun same => ne (Except.ok.inj same).symm
  simp only [ofKey]
  simp [List.filter_append, other]

theorem layered_append (events : List RowEvent) (e : RowEvent) (n : String) :
    layered (events ++ [e]) n = Json.overlay (layered events n) (e.savedRow.get? n) := by
  simp only [layered]
  rw [List.foldl_append, List.foldl_cons, List.foldl_nil]

/-- The values of a column in the rows of more events. -/
theorem layered_append_list (events more : List RowEvent) (n : String) :
    layered (events ++ more) n = Json.overlay (layered events n) (layered more n) := by
  induction more using List.reverseRecOn with
  | nil => rw [List.append_nil, show layered [] n = none from rfl, Json.overlay_none]
  | append_singleton more e ih =>
    rw [← List.append_assoc, layered_append, layered_append, ih, Json.overlay_assoc]

theorem settled_append (events : List RowEvent) (e : RowEvent) (n : String) :
    settled (events ++ [e]) n = (e.carried? n).or (settled events n) := by
  simp only [settled]
  cases h : e.carried? n <;> simp [List.filterMap_append, h]

theorem isPlaceholder_unavailable : (Json.string Json.unavailable).isPlaceholder := by
  simp [Json.isPlaceholder]

/-- What a row has in a column is the value that its event carries, or the placeholder. -/
theorem get?_savedRow_cases {e : RowEvent} (clear : e.Clear) (n : String) :
    (∃ v, e.carried? n = some v ∧ e.savedRow.get? n = some v ∧ v.isPlaceholder = false) ∨
      e.carried? n = none ∧ ∀ v, e.savedRow.get? n = some v → v.isPlaceholder := by
  rw [get?_savedRow clear]
  simp only [carried?]
  cases e.value? n with
  | none => exact .inr ⟨rfl, fun v h => by cases h⟩
  | some v =>
    cases unavailable : v.standsForUnavailable with
    | true =>
      refine .inr ⟨by simp [unavailable], fun u h => ?_⟩
      obtain rfl := Option.some.inj h
      rw [Json.collapsed, if_pos unavailable]
      exact isPlaceholder_unavailable
    | false =>
      refine .inl ⟨v, by simp [unavailable], ?_, ?_⟩
      · simp [Json.collapsed, unavailable]
      · rw [Json.standsForUnavailable, Bool.or_eq_false_iff] at unavailable
        exact unavailable.1

/-- Rows laid over each other end with the last value that an event carries.  If no event carries
one, nothing but the placeholder is left. -/
theorem layered_of_settled {events : List RowEvent} (clear : ∀ e ∈ events, e.Clear) (n : String) :
    (∀ v, settled events n = some v → layered events n = some v ∧ v.isPlaceholder = false) ∧
      (settled events n = none → ∀ v, layered events n = some v → v.isPlaceholder) := by
  induction events using List.reverseRecOn with
  | nil =>
    constructor
    · intro v h
      cases h
    · intro _ v h
      cases h
  | append_singleton events e ih =>
    have ih := ih fun e' mem => clear e' (List.mem_append_left _ mem)
    rw [settled_append, layered_append]
    rcases get?_savedRow_cases (clear e (by simp)) n with ⟨v, hv, saved, plain⟩ | ⟨none, blank⟩
    · rw [hv, saved, Option.some_or, Json.overlay_plain _ plain]
      constructor
      · intro u h
        obtain rfl := Option.some.inj h
        exact ⟨rfl, plain⟩
      · intro h
        cases h
    · rw [none, Option.none_or]
      constructor
      · intro u h
        obtain ⟨under, plain⟩ := ih.1 u h
        refine ⟨?_, plain⟩
        rw [under]
        cases hs : e.savedRow.get? n with
        | none => rw [Json.overlay_none]
        | some w => rw [Json.overlay_some, if_pos (blank w hs)]
      · intro h u hu
        rcases Json.mem_overlay hu with hu | hu
        · exact ih.2 h u hu
        · exact blank u hu

end ChangeCapture.RowEvent

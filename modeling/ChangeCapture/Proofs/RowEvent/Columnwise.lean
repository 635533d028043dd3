import ChangeCapture.Proofs.RowEvent.Shaping
import ChangeCapture.Trial.Sample

/-!
# Shaping as a rule for each column

A topic lists the columns to hash, to drop and to keep.  Its lists may overlap and repeat
names.  Which columns are left, and that those not to be hashed keep their values, can be
told column by column.  The digests cannot: the lists are gone through entry by entry, so a
name that stands twice in the list is hashed twice.

A column that is to be hashed holds the digest of its value if and only if the digest does
not change when it is hashed as often as the column is listed once more
(`TopicSettings.shapeData_columnwise_iff`).
-/

namespace ChangeCapture

namespace TopicSettings

/-- The lists let a column pass. -/
def Passes (s : TopicSettings) (n : String) : Prop :=
  n ∉ s.columnsToExclude ∧
    (s.columnsToInclude ≠ [] →
      n ∈ s.columnsToInclude ∨ n ∈ SystemColumn.all ∨ n ∈ s.staticNames)

/-- The columns that are left are those of the data that pass. -/
def LeavesPassing (s : TopicSettings) (data shaped : Row) : Prop :=
  ∀ n, (∃ v, shaped.get? n = some v) ↔ (∃ u, data.get? n = some u) ∧ s.Passes n

/-- A column that is left and not to be hashed has its value. -/
def LeavesPlain (s : TopicSettings) (data shaped : Row) : Prop :=
  ∀ n u v, data.get? n = some u → shaped.get? n = some v → n ∉ s.columnsToHash → v = u

/-- A column that is left and to be hashed has the digest of the text of its value, or null if
its value is null. -/
def Digests (s : TopicSettings) (data shaped : Row) : Prop :=
  ∀ n u v, data.get? n = some u → shaped.get? n = some v → n ∈ s.columnsToHash →
    v = if u.isNull then .null else .string (Sha256.hexDigest u.keyText)

/-- The filters keep a column if and only if the lists let it pass. -/
theorem keeps_iff_passes {s : TopicSettings} {n : String} : s.keeps n ↔ s.Passes n := by
  simp only [keeps, Passes, keptNames, Bool.and_eq_true, Bool.or_eq_true, Bool.not_eq_true',
    List.contains_eq_mem, decide_eq_false_iff_not, decide_eq_true_eq, List.isEmpty_iff,
    List.mem_append]
  tauto

theorem leavesPassing_shapeData (s : TopicSettings) (data : Row) :
    s.LeavesPassing data (s.shapeData data) := by
  intro n
  rw [get?_shapeData, ← keeps_iff_passes]
  cases s.keeps n <;> simp

/-- A column that is left has its value, hashed as often as the column is listed. -/
theorem eq_iterate_of_left {s : TopicSettings} {data : Row} {n : String} {u v : Json}
    (there : data.get? n = some u) (left : (s.shapeData data).get? n = some v) :
    v = Json.hashed^[s.columnsToHash.count n] u := by
  obtain ⟨-, u', there', rfl⟩ := keeps_of_get? left
  obtain rfl := Option.some.inj (there.symm.trans there')
  rfl

theorem leavesPlain_shapeData (s : TopicSettings) (data : Row) :
    s.LeavesPlain data (s.shapeData data) := by
  intro n u v there left plain
  rw [eq_iterate_of_left there left, List.count_eq_zero.2 plain]
  rfl

/-- What is hashed is told by whether it is null. -/
theorem hashed_eq_ite (u : Json) :
    u.hashed = if u.isNull then .null else .string (Sha256.hexDigest u.keyText) := by
  cases u <;> rfl

/-- What is hashed so often is hashed once first. -/
theorem iterate_count_of_mem {names : List String} {n : String} (listed : n ∈ names) (u : Json) :
    Json.hashed^[names.count n] u = Json.hashed^[names.count n - 1] u.hashed := by
  have positive := List.count_pos_iff.2 listed
  rw [← Function.iterate_succ_apply, Nat.succ_eq_add_one, Nat.sub_add_cancel positive]

/-- The columns to be hashed have the digests of their values if and only if these stay the same
when they are hashed once more for each further entry of the column. -/
theorem digests_shapeData_iff {s : TopicSettings} {data : Row} :
    s.Digests data (s.shapeData data) ↔
      ∀ n u, data.get? n = some u → s.Passes n → n ∈ s.columnsToHash →
        Json.hashed^[s.columnsToHash.count n - 1] u.hashed = u.hashed := by
  constructor
  · intro digests n u there passes listed
    obtain ⟨v, left⟩ := (leavesPassing_shapeData s data n).2 ⟨⟨u, there⟩, passes⟩
    have once := digests n u v there left listed
    rw [← hashed_eq_ite, eq_iterate_of_left there left, iterate_count_of_mem listed] at once
    exact once
  · intro settles n u v there left listed
    have passes := ((leavesPassing_shapeData s data n).1 ⟨v, left⟩).2
    rw [eq_iterate_of_left there left, iterate_count_of_mem listed, ← hashed_eq_ite]
    exact settles n u there passes listed

/-- Columns that are listed once are hashed once. -/
theorem digests_of_nodup {s : TopicSettings} (once : s.columnsToHash.Nodup) (data : Row) :
    s.Digests data (s.shapeData data) := by
  refine digests_shapeData_iff.2 fun n u _ _ listed => ?_
  rw [List.count_eq_one_of_mem once listed]
  rfl

/-- Every column is left or dropped as the lists say, and one that is not to be hashed keeps its
value.  One that is to be hashed has the digest of its value if and only if the digest stays the
same when it is hashed once more for each further entry of the column. -/
theorem shapeData_columnwise_iff (s : TopicSettings) (data : Row) :
    s.LeavesPassing data (s.shapeData data) ∧ s.LeavesPlain data (s.shapeData data) ∧
      (s.Digests data (s.shapeData data) ↔
        ∀ n u, data.get? n = some u → s.Passes n → n ∈ s.columnsToHash →
          Json.hashed^[s.columnsToHash.count n - 1] u.hashed = u.hashed) :=
  ⟨leavesPassing_shapeData s data, leavesPlain_shapeData s data, digests_shapeData_iff⟩

/-! ## A column that is listed twice -/

/-- The settings of a topic that lists one column twice. -/
def hashingTwice (column : String) : TopicSettings :=
  { Sample.settings "people" with columnsToHash := [column, column] }

/-- The digest of a text is not the digest of that digest. -/
theorem digest_of_digest : Sha256.hexDigest (Sha256.hexDigest "x") ≠ Sha256.hexDigest "x" := by
  decide +kernel

/-- A column that a valid topic lists twice holds the digest of the digest of its value. -/
theorem column_is_hashed_twice :
    (hashingTwice "email").validate = .ok () ∧
      ((hashingTwice "email").shapeData (.ofList [("email", .string "x")])).get? "email" =
        some (.string (Sha256.hexDigest (Sha256.hexDigest "x"))) ∧
      ¬ (hashingTwice "email").Digests (.ofList [("email", .string "x")])
        ((hashingTwice "email").shapeData (.ofList [("email", .string "x")])) := by
  have left : ((hashingTwice "email").shapeData (.ofList [("email", .string "x")])).get? "email" =
      some (.string (Sha256.hexDigest (Sha256.hexDigest "x"))) := rfl
  refine ⟨rfl, left, fun digests => ?_⟩
  have once := digests "email" (.string "x") _ rfl left List.mem_cons_self
  exact digest_of_digest (Json.string.inj once)

end TopicSettings

end ChangeCapture

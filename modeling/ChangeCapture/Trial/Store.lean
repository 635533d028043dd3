import ChangeCapture.Store.Basic

/-!
# Stores with planned failures

A store that counts what is asked of it, fails writes as planned, and can be
told not to allow commits.
-/

namespace ChangeCapture

/-- What was asked of a store. -/
structure WriteCounts where
  /-- The number of merges that were tried. -/
  merges : Nat
  /-- The number of appends that were tried. -/
  appends : Nat
  /-- The number of merges and appends that failed. -/
  failures : Nat
  /-- The number of rows in merges and appends that did not fail. -/
  rows : Nat
  /-- The number of merges that allowed a commit. -/
  commits : Nat
  deriving DecidableEq, Repr, Inhabited

/-- A store with planned failures. -/
structure TrialStore where
  /-- The store. -/
  store : Store
  /-- What was asked of it. -/
  counts : WriteCounts
  /-- The number of writes that fail next. -/
  failures : Nat
  /-- The number of writes that fail next, for some tables. -/
  tableFailures : SortedMap String Nat
  /-- Whether no commits are allowed. -/
  deniesCommits : Bool

namespace TrialStore

/-- A store without planned failures. -/
def new (store : Store) : TrialStore := ⟨store, ⟨0, 0, 0, 0, 0⟩, 0, .empty, false⟩

/-- Plans failures of the next writes. -/
def failNext (s : TrialStore) (count : Nat) : TrialStore := { s with failures := count }

/-- Plans failures of the next writes of a table. -/
def failNextFor (s : TrialStore) (table : String) (count : Nat) : TrialStore :=
  { s with tableFailures := s.tableFailures.insert table count }

/-- Denies or allows commits. -/
def denyCommits (s : TrialStore) (deny : Bool) : TrialStore := { s with deniesCommits := deny }

/-- Counts a failure. -/
def countFailure (s : TrialStore) : TrialStore :=
  { s with counts := { s.counts with failures := s.counts.failures + 1 } }

/-- Takes a planned failure of a table, if there is one.  Those of the table itself go first. -/
def takeFailure? (s : TrialStore) (table : String) : Option TrialStore :=
  let planned := s.tableFailures.getD table 0
  if 0 < planned then
    some { s with tableFailures := s.tableFailures.insert table (planned - 1) }.countFailure
  else if 0 < s.failures then some { s with failures := s.failures - 1 }.countFailure
  else none

/-- Counts rows that were written. -/
def countRows (s : TrialStore) (rows : Nat) (commits : Bool) : TrialStore :=
  { s with counts :=
    { s.counts with
      rows := s.counts.rows + rows
      commits := if commits then s.counts.commits + 1 else s.counts.commits } }

/-- Merges the rows of a window, unless a failure is planned. -/
def merge (s : TrialStore) (w : Window) : Outcome Bool × TrialStore :=
  let s := { s with counts := { s.counts with merges := s.counts.merges + 1 } }
  match s.takeFailure? w.name with
  | some s => (.error (.plain .mergeFailed "Injected merge failure"), s)
  | none =>
    let commits := !s.deniesCommits
    (.ok commits, { s with store := s.store.merge w }.countRows w.rowCount commits)

/-- Appends the rows of a window, unless a failure is planned. -/
def append (s : TrialStore) (w : Window) : Outcome Unit × TrialStore :=
  let s := { s with counts := { s.counts with appends := s.counts.appends + 1 } }
  match s.takeFailure? w.name with
  | some s => (.error (.plain .appendFailed "Injected append failure"), s)
  | none =>
    match s.store.append w with
    | .ok store => (.ok (), { s with store := store }.countRows w.rowCount false)
    | .error f => (.error f, s.countFailure)

instance : Destination TrialStore where
  describe s p := (.ok (s.store.describe p), s)
  merge := merge
  append := append

end TrialStore

end ChangeCapture

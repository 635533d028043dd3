import ChangeCapture.Proofs.Retry
import ChangeCapture.Proofs.SortedMap
import ChangeCapture.Trial.Store

/-!
# Stores with a plan for each table

A store whose failures and denials are planned table by table (`PlannedStore`).
What is done to one table sees and changes nothing of the others, and adds to the
counts what does not depend on them (`PlannedStore.Local`).  So steps at two tables
can change places.
-/

namespace ChangeCapture

/-- What is planned for a table. -/
structure WritePlan where
  /-- The number of questions about the table that fail next. -/
  silences : Nat
  /-- The number of writes of the table that fail next. -/
  failures : Nat
  /-- Whether its rows are taken without leave to commit. -/
  deniesCommits : Bool

/-- A store whose failures and denials are planned table by table. -/
structure PlannedStore where
  /-- The store. -/
  store : Store
  /-- What was asked of it. -/
  counts : WriteCounts
  /-- What is planned for each table. -/
  plans : TablePath → WritePlan

namespace PlannedStore

/-- The store with the plan of one table for all of them. -/
def trial (s : PlannedStore) (p : TablePath) : TrialStore :=
  ⟨s.store, s.counts, (s.plans p).failures, .empty, (s.plans p).deniesCommits⟩

/-- The store after a write of one table. -/
def after (s : PlannedStore) (p : TablePath) (t : TrialStore) : PlannedStore :=
  ⟨t.store, t.counts, Function.update s.plans p { s.plans p with failures := t.failures }⟩

/-- Tells what is known about a table, unless a failure is planned. -/
def describe (s : PlannedStore) (p : TablePath) : Outcome TableDescription × PlannedStore :=
  match (s.plans p).silences with
  | 0 => (.ok (s.store.describe p), s)
  | n + 1 =>
    (.error (.plain .destinationError "Planned failure"),
      { s with plans := Function.update s.plans p { s.plans p with silences := n } })

instance : Destination PlannedStore where
  describe := describe
  merge s w := (((s.trial w.path).merge w).1, s.after w.path ((s.trial w.path).merge w).2)
  append s w := (((s.trial w.path).append w).1, s.after w.path ((s.trial w.path).append w).2)

/-! ## One table and the counts -/

/-- What a step at a table can see. -/
structure Site where
  /-- The table, if it is there. -/
  table : Option StoredTable
  /-- What is planned for it. -/
  plan : WritePlan
  /-- The greatest size of an appended batch. -/
  batchLimit : Nat

/-- What a step at a table adds to the counts of a store. -/
structure Tally where
  /-- What is asked of the store. -/
  counts : WriteCounts
  /-- The number of merges. -/
  merges : Nat
  /-- The number of appends. -/
  appends : Nat
  /-- The number of batches that are appended. -/
  appendBatches : Nat

/-- Adds to the counts. -/
def count (c : WriteCounts) (more : WriteCounts) : WriteCounts :=
  ⟨c.merges + more.merges, c.appends + more.appends, c.failures + more.failures,
    c.rows + more.rows, c.commits + more.commits⟩

/-- No counts. -/
def Tally.none : Tally := ⟨⟨0, 0, 0, 0, 0⟩, 0, 0, 0⟩

/-- The counts of one step and another. -/
def Tally.add (t more : Tally) : Tally :=
  ⟨count t.counts more.counts, t.merges + more.merges, t.appends + more.appends,
    t.appendBatches + more.appendBatches⟩

/-- What a step does at a table. -/
structure Effect where
  /-- The table after the step. -/
  table : Option StoredTable
  /-- What is planned for it then. -/
  plan : WritePlan
  /-- What the step adds to the counts. -/
  tally : Tally

/-- What a step at a table can see. -/
def site (s : PlannedStore) (p : TablePath) : Site :=
  ⟨s.store.tables.get? p, s.plans p, s.store.batchLimit⟩

/-- Puts a table in place, or drops it. -/
def place (tables : SortedMap TablePath StoredTable) (p : TablePath) :
    Option StoredTable → SortedMap TablePath StoredTable
  | none => tables.erase p
  | some t => tables.insert p t

/-- The store after a step at a table. -/
def put (s : PlannedStore) (p : TablePath) (e : Effect) : PlannedStore where
  store :=
    { s.store with
      tables := place s.store.tables p e.table
      merges := s.store.merges + e.tally.merges
      appends := s.store.appends + e.tally.appends
      appendBatches := s.store.appendBatches + e.tally.appendBatches }
  counts := count s.counts e.tally.counts
  plans := Function.update s.plans p e.plan

theorem get?_place (tables : SortedMap TablePath StoredTable) (p q : TablePath)
    (t : Option StoredTable) :
    (place tables p t).get? q = if q = p then t else tables.get? q := by
  cases t with
  | none => exact SortedMap.get?_erase tables p q
  | some t => exact SortedMap.get?_insert tables p q t

theorem get?_place_self (tables : SortedMap TablePath StoredTable) (p q : TablePath) :
    (place tables p (tables.get? p)).get? q = tables.get? q := by
  rw [get?_place]
  split
  · rename_i here
    rw [here]
  · rfl

theorem ext {s s' : PlannedStore} (tables : ∀ q, s.store.tables.get? q = s'.store.tables.get? q)
    (merges : s.store.merges = s'.store.merges) (appends : s.store.appends = s'.store.appends)
    (batches : s.store.appendBatches = s'.store.appendBatches)
    (limit : s.store.batchLimit = s'.store.batchLimit) (counts : s.counts = s'.counts)
    (plans : s.plans = s'.plans) : s = s' := by
  obtain ⟨⟨t, _, _, _, _⟩, _, _⟩ := s
  obtain ⟨⟨t', _, _, _, _⟩, _, _⟩ := s'
  obtain rfl : t = t' := SortedMap.ext_get? tables
  simp_all

theorem site_put_self (s : PlannedStore) (p : TablePath) (e : Effect) :
    (s.put p e).site p = ⟨e.table, e.plan, s.store.batchLimit⟩ := by
  simp only [site, put]
  rw [get?_place, if_pos rfl, Function.update_self]

theorem site_put_of_ne (s : PlannedStore) {p q : TablePath} (e : Effect) (ne : q ≠ p) :
    (s.put p e).site q = s.site q := by
  simp only [site, put]
  rw [get?_place, if_neg ne, Function.update_of_ne ne]

theorem put_put_self (s : PlannedStore) (p : TablePath) (e e' : Effect) :
    (s.put p e).put p e' = s.put p { e' with tally := e.tally.add e'.tally } := by
  refine ext (fun q => ?_) (Nat.add_assoc ..) (Nat.add_assoc ..) (Nat.add_assoc ..) rfl ?_ ?_
  · simp only [put]
    rw [get?_place, get?_place, get?_place]
    split <;> rfl
  · simp only [put, count, Tally.add, Nat.add_assoc]
  · exact Function.update_idem ..

theorem put_comm (s : PlannedStore) {p q : TablePath} (e e' : Effect) (ne : p ≠ q) :
    (s.put p e).put q e' = (s.put q e').put p e := by
  refine ext (fun r => ?_) (Nat.add_right_comm ..) (Nat.add_right_comm ..)
    (Nat.add_right_comm ..) rfl ?_ (Function.update_comm ne ..)
  · simp only [put]
    rw [get?_place, get?_place, get?_place, get?_place]
    split
    · rename_i here
      rw [if_neg fun there => ne (there.symm.trans here)]
    · rfl
  · simp only [put, count, Nat.add_right_comm]

theorem put_nothing (s : PlannedStore) (p : TablePath) :
    s.put p ⟨(s.site p).table, (s.site p).plan, .none⟩ = s := by
  exact ext (get?_place_self s.store.tables p) rfl rfl rfl rfl rfl
    (Function.update_eq_self p s.plans)

/-! ## Steps at one table -/

variable {α β : Type}

/-- The step is one at a table: its outcome and its effect depend on what is there to see. -/
def Local (p : TablePath) (f : PlannedStore → α × PlannedStore) : Prop :=
  ∃ g : Site → α × Effect, ∀ s, f s = ((g (s.site p)).1, s.put p (g (s.site p)).2)

namespace Local

variable {p q : TablePath} {f : PlannedStore → α × PlannedStore}

theorem pure (p : TablePath) (a : α) : Local p fun s => (a, s) :=
  ⟨fun x => (a, ⟨x.table, x.plan, .none⟩), fun s => by rw [put_nothing]⟩

theorem bind {k : α → PlannedStore → β × PlannedStore} (h : Local p f)
    (h' : ∀ a, Local p (k a)) : Local p fun s => k (f s).1 (f s).2 := by
  obtain ⟨g, hg⟩ := h
  choose g' hg' using h'
  refine ⟨fun x =>
    let first := g x
    let second := g' first.1 ⟨first.2.table, first.2.plan, x.batchLimit⟩
    (second.1, { second.2 with tally := first.2.tally.add second.2.tally }), fun s => ?_⟩
  simp only [hg, hg']
  rw [site_put_self, put_put_self]
  rfl

theorem congr {f' : PlannedStore → α × PlannedStore} (h : Local p f) (same : ∀ s, f' s = f s) :
    Local p f' := by
  obtain ⟨g, hg⟩ := h
  exact ⟨g, fun s => (same s).trans (hg s)⟩

theorem outcome_eq (h : Local p f) {s s' : PlannedStore} (same : s'.site p = s.site p) :
    (f s').1 = (f s).1 := by
  obtain ⟨g, hg⟩ := h
  rw [hg, hg, same]

theorem site_of_ne (h : Local p f) (ne : q ≠ p) (s : PlannedStore) :
    (f s).2.site q = s.site q := by
  obtain ⟨g, hg⟩ := h
  rw [hg]
  exact site_put_of_ne s _ ne

/-- Steps at two tables can change places. -/
theorem comm {f' : PlannedStore → β × PlannedStore} (h : Local p f) (h' : Local q f')
    (ne : p ≠ q) (s : PlannedStore) : (f' (f s).2).2 = (f (f' s).2).2 := by
  obtain ⟨g, hg⟩ := h
  obtain ⟨g', hg'⟩ := h'
  simp only [hg, hg']
  rw [site_put_of_ne _ _ ne, site_put_of_ne _ _ ne.symm, put_comm _ _ _ ne]

end Local

/-! ## Questions and writes -/

section Write

variable {s : PlannedStore} {w : Window}

theorem local_describe (p : TablePath) :
    Local p fun s : PlannedStore => Destination.describe s p := by
  refine ⟨fun x =>
    match x.plan.silences with
    | 0 => (.ok (x.table.elim ⟨.empty, true⟩ fun t => ⟨t.columns, false⟩),
        ⟨x.table, x.plan, .none⟩)
    | n + 1 => (.error (.plain .destinationError "Planned failure"),
        ⟨x.table, { x.plan with silences := n }, .none⟩), fun s => ?_⟩
  show s.describe p = _
  unfold describe
  cases silences : (s.plans p).silences with
  | zero =>
    simp only [site, silences]
    refine Prod.ext ?_ (put_nothing s p).symm
    simp only [Store.describe]
    cases s.store.tables.get? p <;> rfl
  | succ n =>
    simp only [site, silences]
    refine Prod.ext rfl (ext (fun q => ?_) rfl rfl rfl rfl rfl rfl)
    exact (get?_place_self s.store.tables p q).symm

/-- A plan of one table for all fails a write just when it fails one of the table. -/
theorem takeFailure_trial (s : PlannedStore) (p : TablePath) (counts : WriteCounts)
    (name : String) :
    ({ s.trial p with counts := counts } : TrialStore).takeFailure? name =
      match (s.plans p).failures with
      | 0 => none
      | n + 1 => some { s.trial p with
          counts := { counts with failures := counts.failures + 1 }, failures := n } := by
  unfold TrialStore.takeFailure? trial
  cases (s.plans p).failures <;> rfl

theorem local_merge (w : Window) : Local w.path fun s : PlannedStore => Destination.merge s w := by
  refine ⟨fun x =>
    match x.plan.failures with
    | 0 => (.ok (!x.plan.deniesCommits), ⟨some ((x.table.getD .empty).merge w), x.plan,
        ⟨⟨1, 0, 0, w.rowCount, if x.plan.deniesCommits then 0 else 1⟩, 1, 0, 0⟩⟩)
    | n + 1 => (.error (.plain .mergeFailed "Injected merge failure"),
        ⟨x.table, { x.plan with failures := n }, ⟨⟨1, 0, 1, 0, 0⟩, 0, 0, 0⟩⟩), fun s => ?_⟩
  show (((s.trial w.path).merge w).1, s.after w.path ((s.trial w.path).merge w).2) = _
  simp only [TrialStore.merge]
  rw [takeFailure_trial]
  cases failures : (s.plans w.path).failures with
  | zero =>
    simp only [site, failures]
    refine Prod.ext rfl (ext (fun q => rfl) rfl rfl rfl rfl ?_ rfl)
    simp only [TrialStore.countRows, trial, put, count, after]
    by_cases denies : (s.plans w.path).deniesCommits <;> simp [denies]
  | succ n =>
    simp only [site, failures]
    refine Prod.ext rfl (ext (fun q => ?_) rfl rfl rfl rfl rfl rfl)
    exact (get?_place_self s.store.tables w.path q).symm

theorem local_append (w : Window) :
    Local w.path fun s : PlannedStore => Destination.append s w := by
  refine ⟨fun x =>
    match x.plan.failures, Batch.pack (Store.packing x.batchLimit) [] w.rows with
    | n + 1, _ => (.error (.plain .appendFailed "Injected append failure"),
        ⟨x.table, { x.plan with failures := n }, ⟨⟨0, 1, 1, 0, 0⟩, 0, 0, 0⟩⟩)
    | 0, (_, .error f) => (.error f, ⟨x.table, x.plan, ⟨⟨0, 1, 1, 0, 0⟩, 0, 0, 0⟩⟩)
    | 0, (batches, .ok ()) => (.ok (),
        ⟨some ((x.table.getD .empty).append w (batches.flatMap Batch.items)), x.plan,
          ⟨⟨0, 1, 0, w.rowCount, 0⟩, 0, 1, batches.length⟩⟩), fun s => ?_⟩
  show (((s.trial w.path).append w).1, s.after w.path ((s.trial w.path).append w).2) = _
  simp only [TrialStore.append]
  rw [takeFailure_trial]
  cases failures : (s.plans w.path).failures with
  | zero =>
    cases packed : Batch.pack (Store.packing s.store.batchLimit) [] w.rows with
    | mk batches outcome =>
      simp only [site, failures, packed]
      cases outcome with
      | error f =>
        have fails : (s.trial w.path).store.append w = .error f := by
          show s.store.append w = _
          rw [Store.append, packed]
        simp only [fails]
        refine Prod.ext rfl (ext (fun q => ?_) rfl rfl rfl rfl rfl rfl)
        exact (get?_place_self s.store.tables w.path q).symm
      | ok =>
        have appends : (s.trial w.path).store.append w = .ok
            { s.store with
              tables := s.store.tables.insert w.path
                ((s.store.table w.path).append w (batches.flatMap Batch.items))
              appends := s.store.appends + 1
              appendBatches := s.store.appendBatches + batches.length } := by
          show s.store.append w = _
          rw [Store.append, packed]
        simp only [appends]
        exact Prod.ext rfl (ext (fun q => rfl) rfl rfl rfl rfl rfl rfl)
  | succ n =>
    simp only [site, failures]
    refine Prod.ext rfl (ext (fun q => ?_) rfl rfl rfl rfl rfl rfl)
    exact (get?_place_self s.store.tables w.path q).symm

theorem local_write (w : Window) : Local w.path fun s : PlannedStore => Destination.write s w := by
  unfold Destination.write
  cases w.mode with
  | replication => exact local_merge w
  | history =>
    exact (local_append w).bind fun outcome => .pure w.path (outcome.map fun () => true)

/-- Trying a step at a table is a step at the table. -/
theorem local_run (policy : RetryPolicy) {p : TablePath}
    {op : Nat → PlannedStore → Outcome α × PlannedStore} (h : ∀ n, Local p (op n)) :
    Local p fun s => (policy.run op s).told := by
  suffices rest : ∀ left attempt paused, policy.maxAttempts - attempt = left →
      Local p fun s => (policy.runFrom op attempt paused s).told from rest _ 0 0 rfl
  intro left
  induction left using Nat.strongRecOn with
  | ind left ih =>
    intro attempt paused remaining
    have follows : ∀ outcome, Local p fun s => (policy.goOn op attempt paused outcome s).told := by
      intro outcome
      cases outcome with
      | ok a => exact (Local.pure p (Except.ok a, paused)).congr fun _ => rfl
      | error f =>
        by_cases goes : policy.goesOn attempt f
        · have fewer : policy.maxAttempts - (attempt + 1) < left := by
            simp only [RetryPolicy.goesOn, Bool.and_eq_true, decide_eq_true_eq] at goes
            omega
          simp only [RetryPolicy.goOn, if_pos goes]
          exact ih _ fewer (attempt + 1) _ rfl
        · simp only [RetryPolicy.goOn, if_neg goes]
          exact (Local.pure p (Except.error f, paused)).congr fun _ => rfl
    exact ((h attempt).bind follows).congr fun s => by rw [RetryPolicy.runFrom_eq_goOn]

end Write

end PlannedStore

end ChangeCapture

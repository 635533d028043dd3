import ChangeCapture.Proofs.Engine.Convergence
import ChangeCapture.Proofs.Engine.Layering
import Mathlib.Data.List.DropRight

/-!
# What a hard delete leaves of a row

A flush writes of each row what its window holds in the end.  If that is marked
as deleted the row goes away.  If it is not, the values of the window go over the
stored ones, and those of events before a delete in the window are still there.
So what is stored of a row are the rows of its events since the last window that
erased it, laid over each other (`RowEvent.layered_kept`), and a hard delete
forgets the old row if and only if none of these values is older
(`Feed.forgets_iff`).
-/

namespace ChangeCapture

/-! ## Windows one after the other -/

namespace RowEvent

/-- A value of rows laid over each other is one of theirs. -/
theorem mem_of_layered {events : List RowEvent} {n : String} {v : Json}
    (h : layered events n = some v) : ∃ e ∈ events, e.savedRow.get? n = some v := by
  induction events using List.reverseRecOn with
  | nil => cases h
  | append_singleton events e ih =>
    rw [layered_append] at h
    rcases Json.mem_overlay h with h | h
    · obtain ⟨e', mem, hv⟩ := ih h
      exact ⟨e', List.mem_append_left _ mem, hv⟩
    · exact ⟨e, by simp, h⟩

/-- A window with these events erases the row when it is merged: the mark that it holds in the end
says that the row is deleted, and deletes are not soft. -/
def wipes (s : TopicSettings) (key : String) (window : List RowEvent) : Bool :=
  erases s (layered (ofKey window key))

/-- The events of a row since the last window that erased it. -/
def kept (s : TopicSettings) (key : String) (windows : List (List RowEvent)) : List RowEvent :=
  ofKey (windows.rtakeWhile fun window => !wipes s key window).flatten key

/-- The events after the last one that deletes the row for good. -/
def sinceDelete (s : TopicSettings) (events : List RowEvent) : List RowEvent :=
  events.rtakeWhile fun e => !e.isHardDelete s

/-- What is left of a row when windows are merged one after the other. -/
def remains (s : TopicSettings) (key : String) (windows : List (List RowEvent)) :
    String → Option Json :=
  windows.foldl (fun below window => merged s below (layered (ofKey window key))) fun _ => none

variable (s : TopicSettings) (key : String) (windows : List (List RowEvent))
  (window : List RowEvent)

theorem remains_append : remains s key (windows ++ [window]) =
    merged s (remains s key windows) (layered (ofKey window key)) := by
  simp only [remains]
  rw [List.foldl_append, List.foldl_cons, List.foldl_nil]

theorem kept_append : kept s key (windows ++ [window]) =
    if wipes s key window then [] else kept s key windows ++ ofKey window key := by
  simp only [kept]
  rw [List.rtakeWhile_concat]
  cases wipes s key window with
  | true => rfl
  | false => simp [ofKey_append]

theorem mem_kept_of_twice {s : TopicSettings} {key : String} {windows : List (List RowEvent)}
    {window : List RowEvent} {e : RowEvent}
    (h : e ∈ kept s key (windows ++ [window] ++ [window])) :
    e ∈ kept s key (windows ++ [window]) := by
  rw [kept_append] at h
  split at h
  · cases h
  · rename_i stays
    rcases List.mem_append.1 h with h | h
    · exact h
    · rw [kept_append, if_neg stays]
      exact List.mem_append_right _ h

/-- What is left of a row are the rows of its events since the last window that erased it, laid
over each other. -/
theorem layered_kept : remains s key windows = layered (kept s key windows) := by
  induction windows using List.reverseRecOn with
  | nil => rfl
  | append_singleton windows window ih =>
    rw [remains_append, kept_append, ih]
    cases hw : wipes s key window with
    | true => exact merged_of_erases hw _
    | false =>
      rw [merged_of_stays hw, if_neg Bool.false_ne_true]
      funext n
      exact (layered_append_list _ _ n).symm

end RowEvent

/-! ## What a run keeps -/

open RowEvent (ofKey layered wipes kept sinceDelete remains)

variable {s : TopicSettings}

/-- The stored rows are what windows left that were merged one after the other, and the buffered
ones hold the events since. -/
structure Waits (s : TopicSettings) (windows : List (List RowEvent)) (waiting : List RowEvent)
    (w? : Option Window) (t : StoredTable) : Prop where
  /-- The window fits the table. -/
  fits : Fits s (· ≠ "") w? t
  /-- The stored values are those that the windows left. -/
  values : ∀ key n, n ≠ "" → Json.Alike (t.value? key n) (remains s key windows n)
  /-- A stored value is one of an event since the last window that erased the row. -/
  carried : ∀ key n v, t.value? key n = some v →
    ∃ e ∈ kept s key windows, e.savedRow.get? n = some v
  /-- The buffered rows are those of the events since. -/
  buffers : ∀ w, w? = some w → ∀ key, w.value? key = layered (ofKey waiting key)

namespace Waits

variable {windows : List (List RowEvent)} {waiting : List RowEvent} {w : Window} {t : StoredTable}

theorem extend {w' : Window} (h : Waits s windows waiting (some w) t) (extends' : w'.Extends w) :
    Waits s windows waiting (some w') t := by
  refine ⟨h.fits.extend extends', h.values, h.carried, ?_⟩
  rintro _ ⟨⟩ key
  funext n
  rw [Window.value?, extends'.rows]
  exact congrFun (h.buffers w rfl key) n

theorem carried_merge (h : Waits s windows waiting (some w) t) {key n : String} {v : Json}
    (hv : (t.merge (w.adopt t.columns)).value? key n = some v) :
    ∃ e ∈ kept s key (windows ++ [waiting]), e.savedRow.get? n = some v := by
  have wiped : wipes s key waiting = erases s (w.value? key) := by
    rw [wipes, h.buffers w rfl key]
  rw [RowEvent.kept_append]
  cases gone : wipes s key waiting with
  | true =>
    have none := h.fits.get?_merge_of_erases (wiped ▸ gone)
    rw [StoredTable.value?, none] at hv
    cases hv
  | false =>
    rw [if_neg Bool.false_ne_true]
    rcases StoredTable.value?_merge_cases hv with hv | ⟨hv, -⟩
    · obtain ⟨e, mem, he⟩ := h.carried key n v hv
      exact ⟨e, List.mem_append_left _ mem, he⟩
    · have held : w.value? key n = some v := hv
      rw [h.buffers w rfl key] at held
      obtain ⟨e, mem, he⟩ := RowEvent.mem_of_layered held
      exact ⟨e, List.mem_append_right _ mem, he⟩

theorem adopt (h : Waits s windows waiting (some w) t) :
    Waits s windows waiting (some (w.adopt t.columns)) t :=
  h.extend h.fits.extends_adopt

theorem remerge (h : Waits s windows waiting (some w) t) :
    Waits s (windows ++ [waiting]) waiting (some (w.adopt t.columns))
      (t.merge (w.adopt t.columns)) where
  fits := h.fits.remerge
  values := by
    intro key n named
    have once := h.fits.value?_merge key named
    rw [h.buffers w rfl key] at once
    rw [RowEvent.remains_append]
    exact once.trans (alike_merged (h.values key n named) s _)
  carried := fun key n v hv => h.carried_merge hv
  buffers := h.adopt.buffers

theorem drop {w? : Option Window} (h : Waits s windows waiting w? t) : Waits s windows [] none t :=
  ⟨h.fits.drop, h.values, h.carried, fun w hw => by cases hw⟩

/-- A window that was merged twice was merged once. -/
theorem of_twice {w? : Option Window} {window : List RowEvent}
    (h : Waits s (windows ++ [window] ++ [window]) waiting w? t) :
    Waits s (windows ++ [window]) waiting w? t where
  fits := h.fits
  values := by
    intro key n named
    have values := h.values key n named
    rwa [RowEvent.remains_append, RowEvent.remains_append, merged_merged,
      ← RowEvent.remains_append] at values
  carried := by
    intro key n v hv
    obtain ⟨e, mem, he⟩ := h.carried key n v hv
    exact ⟨e, RowEvent.mem_kept_of_twice mem, he⟩
  buffers := h.buffers

end Waits

/-- The window of a table between two flushes: it is there if events wait. -/
structure Pending (s : TopicSettings) (windows : List (List RowEvent)) (waiting : List RowEvent)
    (w? : Option Window) (t : StoredTable) : Prop extends Waits s windows waiting w? t where
  /-- Without a window no event waits. -/
  idle : w? = none → waiting = []

/-- The events of the table are those of the windows, and those that wait. -/
def Parted (s : TopicSettings) (windows : List (List RowEvent)) (events : List RowEvent)
    (w? : Option Window) (t : StoredTable) : Prop :=
  ∃ waiting, events = windows.flatten ++ waiting ∧ Pending s windows waiting w? t

theorem Parted.saveStable (s : TopicSettings) (windows : List (List RowEvent)) :
    SaveStable s (fun e => KindHints.Typed e.hints) (Parted s windows) where
  keyed := by
    rintro events w t ⟨waiting, -, pending⟩
    exact pending.fits.keyed w rfl
  extend := by
    rintro events w w' t ⟨waiting, split, pending⟩ extends'
    exact ⟨waiting, split, pending.toWaits.extend extends', fun none => by cases none⟩
  lay := by
    rintro events w? t e key w ⟨waiting, split, pending⟩ typed hkey lays
    refine ⟨waiting ++ [e], by rw [split, List.append_assoc], ?_⟩
    refine ⟨⟨pending.fits.lay lays typed fun n v named _ => named, pending.values,
      pending.carried, ?_⟩, fun none => by cases none⟩
    rintro _ ⟨⟩ k
    have before : onTop w? k = layered (ofKey waiting k) := by
      cases hw : w? with
      | none =>
        rw [pending.idle hw]
        rfl
      | some w' => exact pending.buffers w' hw k
    funext n
    rw [lays.value?]
    by_cases same : k = key
    · subst same
      rw [if_pos rfl, RowEvent.ofKey_append_self hkey, RowEvent.layered_append, ← before]
      rfl
    · rw [if_neg same, RowEvent.ofKey_append_other hkey same, ← before]
      rfl

/-! ## Flushes -/

/-- A table while it is flushed: the window waits, or it was merged and stays, or it was merged and
went away. -/
inductive Flushing (s : TopicSettings) (windows : List (List RowEvent)) (waiting : List RowEvent) :
    Option Window → StoredTable → Prop where
  /-- The window waits. -/
  | waits {w? : Option Window} {t : StoredTable} (h : Pending s windows waiting w? t) :
    Flushing s windows waiting w? t
  /-- The window was merged and stays. -/
  | stays {w : Window} {t : StoredTable} (h : Waits s (windows ++ [waiting]) waiting (some w) t) :
    Flushing s windows waiting (some w) t
  /-- The window was merged and went away. -/
  | gone {t : StoredTable} (h : Waits s (windows ++ [waiting]) [] none t) :
    Flushing s windows waiting none t

namespace Flushing

variable {windows : List (List RowEvent)} {waiting : List RowEvent} {w : Window} {t : StoredTable}

theorem fits {w? : Option Window} (h : Flushing s windows waiting w? t) :
    Fits s (· ≠ "") w? t := by
  cases h with
  | waits h => exact h.fits
  | stays h => exact h.fits
  | gone h => exact h.fits

/-- The window is merged and stays.  It does not matter whether it was merged before. -/
theorem remerge (h : Flushing s windows waiting (some w) t) :
    Waits s (windows ++ [waiting]) waiting (some (w.adopt t.columns))
      (t.merge (w.adopt t.columns)) := by
  cases h with
  | waits h => exact h.toWaits.remerge
  | stays h => exact h.remerge.of_twice

theorem flushStable (s : TopicSettings) (windows : List (List RowEvent))
    (waiting : List RowEvent) : FlushStable s (Flushing s windows waiting) where
  keyed := fun h => h.fits.keyed _ rfl
  adopt := by
    intro w t h
    cases h with
    | waits h => exact .waits ⟨h.toWaits.adopt, fun none => by cases none⟩
    | stays h => exact .stays h.adopt
  remerge := fun h => .stays h.remerge
  merge := fun h => .gone h.remerge.drop

/-- After a flush that leaves nothing buffered the window was merged. -/
theorem done (h : Flushing s windows waiting none t) :
    Pending s (windows ++ [waiting]) [] none t := by
  refine ⟨?_, fun _ => rfl⟩
  cases h with
  | gone h => exact h
  | waits h =>
    obtain rfl := h.idle rfl
    refine ⟨h.fits, fun key n named => ?_, fun key n v hv => ?_, h.buffers⟩
    · rw [RowEvent.remains_append]
      exact (merged_none s _) ▸ h.values key n named
    · obtain ⟨e, mem, he⟩ := h.carried key n v hv
      refine ⟨e, ?_, he⟩
      rw [RowEvent.kept_append]
      exact List.mem_append_left _ mem

end Flushing

/-! ## Runs -/

namespace Feed

variable {κ : Type} (s) (table : String)

/-- A run of which each flush leaves no row of the table buffered, and the events of the table by
the flush that wrote them.  The table is fed in replication mode under the settings `s`. -/
inductive Cuts [Source κ] : Feed κ → List (List RowEvent) → Prop where
  /-- Nothing is stored of the table at first. -/
  | start (thresholds : Thresholds) {d : TrialStore}
    (absent : d.store.tables.get? (.ofTopic s table) = none) (sources : SortedMap String κ)
    (retry : RetryPolicy) : Cuts (start thresholds d sources retry) []
  /-- A change is taken in. -/
  | deliver {f : Feed κ} {windows : List (List RowEvent)} (h : Cuts f windows)
    (s' : TopicSettings) (mode : Mode) (now : Instant) (key : Row) (c : Change) (m : Message)
    (fits : ∀ e, RowEvent.ofChange s' mode now key c = .ok e → e.tableId = s.tableId table →
      s' = s ∧ mode = .replication ∧ KindHints.Typed e.hints) :
    Cuts (f.deliver s' mode now key c m) windows
  /-- Failures are planned, or denials. -/
  | plan {f : Feed κ} {windows : List (List RowEvent)} (h : Cuts f windows) (failures : Nat)
    (tableFailures : SortedMap String Nat) (deniesCommits : Bool) :
    Cuts (f.plan failures tableFailures deniesCommits) windows
  /-- Tables are flushed, and all events of the table are written. -/
  | flush {f : Feed κ} {windows : List (List RowEvent)} (h : Cuts f windows) (order : FlushOrder)
    (now : Nat) (done : (f.flush order now).engine.registry.Vacant (s.tableId table)) :
    Cuts (f.flush order now)
      (windows ++ [(f.eventsOf (s.tableId table)).drop windows.flatten.length])

variable {s table}

theorem keeps_cuts [Source κ] {f : Feed κ} {windows : List (List RowEvent)}
    (path : Cuts s table f windows) : f.Keeps s table (Parted s windows) := by
  induction path with
  | @start thresholds d absent sources retry =>
    refine Hosts.start thresholds ⟨[], rfl, ?_⟩
    show Pending s [] [] none (d.store.table _)
    rw [Store.table_of_absent absent]
    exact {
      fits := .of_sound s _ StoredTable.sound_empty
      values := fun _ _ _ => .refl none
      carried := fun _ _ _ hv => by cases hv
      buffers := fun _ hw => by cases hw
      idle := fun _ => rfl }
  | deliver _ s' mode now key c m fits ih =>
    refine ih.deliver (Parted.saveStable s _) (fun e made same => ?_) m
    obtain ⟨settings, mode, typed⟩ := fits e made same
    exact ⟨settings, mode, fun _ => typed⟩
  | plan _ failures tableFailures deniesCommits ih =>
    exact ih.plan failures tableFailures deniesCommits
  | @flush f windows _ order now done ih =>
    obtain ⟨waiting, split, pending⟩ := ih.holds
    have written : (f.eventsOf (s.tableId table)).drop windows.flatten.length = waiting := by
      rw [split, List.drop_left]
    have before : Hosts s table (Flushing s windows waiting) f.engine.registry
        f.engine.destination :=
      ⟨ih.named, ih.placed, ih.listed, .waits pending⟩
    have after := before.flush (Flushing.flushStable s windows waiting) order now
    refine ⟨after.named, after.placed, after.listed, [], ?_, ?_⟩
    · rw [written, List.flatten_append, List.flatten_singleton, List.append_nil]
      exact split
    · have flushed := after.holds
      have empty : (f.engine.flush order now).state.registry.content (s.tableId table) = none :=
        done.content
      rw [empty] at flushed
      rw [show (f.flush order now).engine.registry.content (s.tableId table) = none from empty,
        written]
      exact flushed.done

/-- The windows hold the events of the table, all of them if none is buffered. -/
theorem eventsOf_cuts [Source κ] {f : Feed κ} {windows : List (List RowEvent)}
    (path : Cuts s table f windows) :
    windows.flatten <+: f.eventsOf (s.tableId table) ∧
      (f.engine.registry.Vacant (s.tableId table) →
        windows.flatten = f.eventsOf (s.tableId table)) := by
  obtain ⟨waiting, split, pending⟩ := (keeps_cuts path).holds
  refine ⟨⟨waiting, split.symm⟩, fun vacant => ?_⟩
  rw [split, pending.idle vacant.content, List.append_nil]

/-- Values of a row are nothing but values that events carry, unless they say nothing. -/
def OnlyCarries (values : String → Option Json) (events : List RowEvent) : Prop :=
  ∀ n v, n ≠ "" → values n = some v → v.isBlank = false →
    ∃ e ∈ events, e.savedRow.get? n = some v

/-- A hard delete forgets the old row if and only if the rows of its events since the last window
that erased it, laid over each other, hold nothing but values of the events after the last hard
delete, absent, null and the placeholder aside.  If there are no other events since that window, it
forgets even these. -/
theorem forgets_iff [Source κ] {f : Feed κ} {windows : List (List RowEvent)}
    (path : Cuts s table f windows) (key : String) :
    (OnlyCarries ((f.stored s table).value? key)
        (sinceDelete s (f.history (s.tableId table) key)) ↔
      OnlyCarries (layered (kept s key windows))
        (sinceDelete s (f.history (s.tableId table) key))) ∧
    (kept s key windows <:+ sinceDelete s (f.history (s.tableId table) key) →
      ∀ n v, (f.stored s table).value? key n = some v →
        ∃ e ∈ sinceDelete s (f.history (s.tableId table) key), e.savedRow.get? n = some v) := by
  obtain ⟨waiting, split, pending⟩ := (keeps_cuts path).holds
  constructor
  · have same : ∀ n v, n ≠ "" → v.isBlank = false →
        ((f.stored s table).value? key n = some v ↔ layered (kept s key windows) n = some v) := by
      intro n v named full
      have alike := pending.values key n named
      rw [RowEvent.layered_kept] at alike
      constructor
      · intro h
        exact (h ▸ alike.symm).eq_some full
      · intro h
        exact (h ▸ alike).eq_some full
    constructor
    · exact fun only n v named hv full => only n v named ((same n v named full).2 hv) full
    · exact fun only n v named hv full => only n v named ((same n v named full).1 hv) full
  · intro suffix n v hv
    obtain ⟨e, mem, he⟩ := pending.carried key n v hv
    exact ⟨e, suffix.subset mem, he⟩

/-! ## A sample run -/

/-- The sample row is deleted. -/
def sampleDelete (f : Feed MessageQueue) : Feed MessageQueue :=
  f.deliver sampleSettings .replication ⟨0⟩ sampleKey (Sample.change "people" .delete none)
    (Sample.message "people" 1 .empty .empty)

/-- The sample row is added with a name and then deleted. -/
def sampleDeleted : Feed MessageQueue :=
  (sampleStart.sampleDeliver [("name", .string "Ada")]).sampleDelete

/-- The sample row is added once more, without a name. -/
def sampleRevived (f : Feed MessageQueue) : Feed MessageQueue := f.sampleDeliver []

/-- All tables are flushed. -/
def sampleShutdown (f : Feed MessageQueue) : Feed MessageQueue := f.flush .shutdown 0

theorem cuts_sample {f : Feed MessageQueue} {windows : List (List RowEvent)}
    (h : Cuts sampleSettings "people" f windows) {c : Change} (bare : c.hints = none)
    (m : Message) :
    Cuts sampleSettings "people" (f.deliver sampleSettings .replication ⟨0⟩ sampleKey c m)
      windows := by
  refine h.deliver _ _ _ _ _ m fun e made _ => ⟨rfl, rfl, fun hints hh => ?_⟩
  rw [(RowEvent.ofChange_parts made).2.2.2.1, bare] at hh
  cases hh

theorem cuts_sampleDeleted : Cuts sampleSettings "people" sampleDeleted [] := by
  have started : Cuts sampleSettings "people" sampleStart [] := .start _ rfl _ _
  exact cuts_sample (cuts_sample started (c := sampleChange [("name", .string "Ada")]) rfl _)
    (c := Sample.change "people" .delete none) rfl _

theorem cuts_sampleRevived {f : Feed MessageQueue} {windows : List (List RowEvent)}
    (h : Cuts sampleSettings "people" f windows) :
    Cuts sampleSettings "people" f.sampleRevived windows :=
  cuts_sample h (c := sampleChange []) rfl _

/-- The delete is flushed before the row is added again. -/
theorem forgets_iff_sampleRevived :
    let f := sampleDeleted.sampleShutdown.sampleRevived.sampleShutdown
    let t := sampleSettings.tableId "people"
    let windows := [sampleDeleted.eventsOf t,
      (sampleDeleted.sampleShutdown.sampleRevived.eventsOf t).drop 2]
    f.engine.registry.Vacant t ∧
      (OnlyCarries ((f.stored sampleSettings "people").value? "id=1")
          (sinceDelete sampleSettings (f.history t "id=1")) ↔
        OnlyCarries (layered (kept sampleSettings "id=1" windows))
          (sinceDelete sampleSettings (f.history t "id=1"))) ∧
      (kept sampleSettings "id=1" windows <:+ sinceDelete sampleSettings (f.history t "id=1") →
        ∀ n v, (f.stored sampleSettings "people").value? "id=1" n = some v →
          ∃ e ∈ sinceDelete sampleSettings (f.history t "id=1"),
            e.savedRow.get? n = some v) := by
  intro f t windows
  have first : Cuts sampleSettings "people" sampleDeleted.sampleShutdown
      [sampleDeleted.eventsOf t] :=
    cuts_sampleDeleted.flush .shutdown 0 (by decide +kernel)
  have revived : Cuts sampleSettings "people" sampleDeleted.sampleShutdown.sampleRevived
      [sampleDeleted.eventsOf t] := cuts_sampleRevived first
  have flushed : f.engine.registry.Vacant t := by decide +kernel
  have two : [sampleDeleted.eventsOf t].flatten.length = 2 := by decide +kernel
  have path := revived.flush .shutdown 0 flushed
  rw [two] at path
  exact ⟨flushed, forgets_iff path "id=1"⟩

/-- If the row is added again before the delete is flushed, it has its old name. -/
theorem keeps_deleted_name :
    let f := sampleDeleted.sampleRevived.sampleShutdown
    let t := sampleSettings.tableId "people"
    Cuts sampleSettings "people" f [sampleDeleted.sampleRevived.eventsOf t] ∧
      f.engine.registry.Vacant t ∧
      (∃ e ∈ f.history t "id=1", e.isHardDelete sampleSettings) ∧
      ¬ OnlyCarries ((f.stored sampleSettings "people").value? "id=1")
        (sinceDelete sampleSettings (f.history t "id=1")) := by
  intro f t
  have flushed : f.engine.registry.Vacant t := by decide +kernel
  have path := cuts_sampleRevived cuts_sampleDeleted
  refine ⟨path.flush .shutdown 0 flushed, flushed, by decide +kernel, fun only => ?_⟩
  have stored : ((f.stored sampleSettings "people").value? "id=1" "name").bind Json.string? =
      some "Ada" := by
    decide +kernel
  have nameless : ∀ e ∈ sinceDelete sampleSettings (f.history t "id=1"),
      (e.savedRow.get? "name").isNone := by
    decide +kernel
  obtain ⟨v, hv, text⟩ := Option.bind_eq_some_iff.1 stored
  have full : v.isBlank = false := by
    cases v <;> simp [Json.string?] at text
    subst text
    decide +kernel
  obtain ⟨e, mem, he⟩ := only "name" v (by decide) hv full
  have absent := nameless e mem
  rw [he] at absent
  cases absent

end Feed

end ChangeCapture

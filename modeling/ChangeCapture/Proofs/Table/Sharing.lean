import ChangeCapture.Proofs.SortedMap
import ChangeCapture.Table.Registry
import Mathlib.Data.List.Induction

/-!
# Tables that are asked for at once

Who asks for the buffer of a table looks the table up.  If it is not there, the table is
looked up once more and brought up, this time with all others kept out.  Between the two,
others may bring up the table, also under another topic (`SharedTables.Sharing.turn`).

Whatever the order of these turns is, everyone who asks for a table gets the same buffer,
and the tables are registered as if one after the other had registered them
(`SharedTables.shares_tables`).
-/

namespace ChangeCapture

/-! ## Tables that are shared -/

/-- The buffers of all tables, as those share them who hold one.  A buffer is known by its place
among all that were brought up. -/
structure SharedTables where
  /-- The buffers, in the order in which they were brought up. -/
  buffers : List TableBuffer
  /-- The place of the buffer of each table. -/
  places : SortedMap TableId Nat
  /-- The tables of each topic. -/
  topics : SortedMap String (List TableId)

namespace SharedTables

/-- No tables yet. -/
def empty : SharedTables := ⟨[], .empty, .empty⟩

/-- The tables of a topic. -/
def tablesOf (s : SharedTables) (topic : String) : List TableId := s.topics.getD topic []

/-- The buffers of the tables, whoever holds them. -/
def registry (s : SharedTables) (thresholds : Thresholds) : TableRegistry where
  tables := s.places.mapValues fun t place => s.buffers.getD place (.new t "")
  topics := s.topics
  thresholds := thresholds

/-- Brings up a table under a topic. -/
def add (s : SharedTables) (t : TableId) (topic : String) : SharedTables where
  buffers := s.buffers ++ [.new t topic]
  places := s.places.insert t s.buffers.length
  topics := s.topics.insert topic (s.tablesOf topic ++ [t])

/-- How far someone is who asks for the buffer of a table. -/
inductive Stage where
  /-- The table is to be looked up. -/
  | asking
  /-- The table was not there. -/
  | missing
  /-- The buffer at this place is held. -/
  | holding (place : Nat)
  deriving DecidableEq, Repr

/-- The number of turns that a stage takes at most. -/
def Stage.turns : Stage → Nat
  | asking => 0
  | missing => 1
  | holding _ => 2

/-- Someone who asks for the buffer of a table, to feed it from a topic. -/
structure Caller where
  /-- The table. -/
  table : TableId
  /-- The topic. -/
  topic : String
  /-- How far the caller is. -/
  stage : Stage
  deriving DecidableEq, Repr

namespace Caller

/-- A turn of a caller, in which the tables are not touched by others.  The first one looks up the
table.  The second one looks it up again, since others may have had their turns in between, and
brings it up if it is still not there. -/
def turn (c : Caller) (s : SharedTables) : SharedTables × Caller :=
  match c.stage, s.places.get? c.table with
  | .holding _, _ => (s, c)
  | _, some place => (s, { c with stage := .holding place })
  | .asking, none => (s, { c with stage := .missing })
  | .missing, none => (s.add c.table c.topic, { c with stage := .holding s.buffers.length })

/-- What a turn of a caller does. -/
inductive TurnStep (c : Caller) (s : SharedTables) : SharedTables → Caller → Prop where
  /-- The caller holds a buffer already. -/
  | done {place : Nat} (held : c.stage = .holding place) : TurnStep c s s c
  /-- The table is there. -/
  | found {place : Nat} (there : s.places.get? c.table = some place) :
    TurnStep c s s { c with stage := .holding place }
  /-- The table is not there. -/
  | missed (first : c.stage = .asking) : TurnStep c s s { c with stage := .missing }
  /-- The table is brought up. -/
  | added (absent : s.places.get? c.table = none) :
    TurnStep c s (s.add c.table c.topic) { c with stage := .holding s.buffers.length }

theorem turn_step (c : Caller) (s : SharedTables) : c.TurnStep s (c.turn s).1 (c.turn s).2 := by
  unfold turn
  cases stage : c.stage with
  | holding place => exact .done stage
  | asking =>
    cases there : s.places.get? c.table with
    | some place => exact .found there
    | none => exact .missed stage
  | missing =>
    cases there : s.places.get? c.table with
    | some place => exact .found there
    | none => exact .added there

end Caller

/-- Tables and everyone who asks for one. -/
structure Sharing where
  /-- The tables. -/
  tables : SharedTables
  /-- The callers. -/
  callers : List Caller

namespace Sharing

/-- Callers before their first turn. -/
def start (requests : List (TableId × String)) : Sharing :=
  ⟨.empty, requests.map fun r => ⟨r.1, r.2, .asking⟩⟩

/-- The turn of a caller. -/
def turn (s : Sharing) (i : Nat) : Sharing :=
  match s.callers[i]? with
  | none => s
  | some c => ⟨(c.turn s.tables).1, s.callers.set i (c.turn s.tables).2⟩

/-- Callers after their turns, in any order. -/
def run (requests : List (TableId × String)) (schedule : List Nat) : Sharing :=
  schedule.foldl turn (start requests)

end Sharing

/-- Everyone who asks for a table gets its buffer, and every table is listed once and for all. -/
structure SharesTables (requests : List (TableId × String)) (schedule : List Nat)
    (thresholds : Thresholds) (s : Sharing) (r : TableRegistry) : Prop where
  /-- The callers ask for what they were to ask for. -/
  asked : s.callers.map (fun c => (c.table, c.topic)) = requests
  /-- A caller holds a buffer after two turns. -/
  served : ∀ i c, s.callers[i]? = some c → 2 ≤ schedule.count i → ∃ place, c.stage = .holding place
  /-- It is the buffer of the table. -/
  held : ∀ c ∈ s.callers, ∀ place, c.stage = .holding place →
    ∃ b, s.tables.buffers[place]? = some b ∧ r.get? c.table = some b ∧ b.tableId = c.table
  /-- All who ask for a table hold one buffer. -/
  same : ∀ c ∈ s.callers, ∀ c' ∈ s.callers, c.table = c'.table → ∀ place place',
    c.stage = .holding place → c'.stage = .holding place' → place = place'
  /-- The tables are those that are registered one after the other. -/
  sequential : r = s.tables.buffers.foldl (fun r b => r.register b.tableId b.topic)
    (.new thresholds)
  /-- Every table that is there is listed once, and no other. -/
  once : ∀ t, r.topics.values.flatten.count t = if (r.get? t).isSome then 1 else 0
  /-- It is listed under the topic of its buffer. -/
  listed : ∀ topic t, t ∈ r.tablesOf topic ↔ ∃ b, r.get? t = some b ∧ b.topic = topic
  /-- The list of a topic is in the order in which the tables were brought up. -/
  ordered : ∀ topic, r.tablesOf topic =
    (s.tables.buffers.filter fun b => b.topic = topic).map TableBuffer.tableId
  /-- Whatever turns follow, lists grow at their ends and tables keep their buffers. -/
  stays : ∀ more, let s' := Sharing.run requests (schedule ++ more)
    (∀ topic, r.tablesOf topic <+: (s'.tables.registry thresholds).tablesOf topic) ∧
      ∀ t b, r.get? t = some b → (s'.tables.registry thresholds).get? t = some b

/-! ## Growth -/

/-- Tables that may have become more. -/
structure Grows (s s' : SharedTables) : Prop where
  /-- Buffers are brought up behind those that are there. -/
  buffers : s.buffers <+: s'.buffers
  /-- Tables are listed behind those that are there. -/
  lists : ∀ topic, s.tablesOf topic <+: s'.tablesOf topic
  /-- Tables keep their buffers. -/
  places : ∀ t place, s.places.get? t = some place → s'.places.get? t = some place

theorem Grows.refl (s : SharedTables) : s.Grows s :=
  ⟨List.prefix_refl _, fun _ => List.prefix_refl _, fun _ _ => id⟩

theorem Grows.trans {s s' s'' : SharedTables} (h : s.Grows s') (h' : s'.Grows s'') : s.Grows s'' :=
  ⟨h.buffers.trans h'.buffers, fun topic => (h.lists topic).trans (h'.lists topic),
    fun t place there => h'.places t place (h.places t place there)⟩

theorem tablesOf_add (s : SharedTables) (t : TableId) (fed topic : String) :
    (s.add t fed).tablesOf topic =
      if topic = fed then s.tablesOf fed ++ [t] else s.tablesOf topic :=
  SortedMap.getD_insert s.topics fed topic _ []

theorem get?_places_add (s : SharedTables) (t t' : TableId) (topic : String) :
    (s.add t topic).places.get? t' =
      if t' = t then some s.buffers.length else s.places.get? t' :=
  SortedMap.get?_insert s.places t t' _

theorem getElem?_buffers_add {s : SharedTables} {t : TableId} {topic : String} {place : Nat}
    {b : TableBuffer} : (s.add t topic).buffers[place]? = some b ↔
      s.buffers[place]? = some b ∨ place = s.buffers.length ∧ TableBuffer.new t topic = b := by
  rw [add, List.getElem?_append]
  split
  · have : place ≠ s.buffers.length := by omega
    simp [this]
  · rename_i outside
    have none : s.buffers[place]? = none := List.getElem?_eq_none (by omega)
    rw [none, List.getElem?_singleton]
    split
    · have : place = s.buffers.length := by omega
      simp [this]
    · have : place ≠ s.buffers.length := by omega
      simp [this]

theorem grows_add {s : SharedTables} {t : TableId} (absent : s.places.get? t = none)
    (topic : String) : s.Grows (s.add t topic) where
  buffers := List.prefix_append _ _
  lists topic' := by
    rw [tablesOf_add]
    split
    · rename_i same
      rw [same]
      exact List.prefix_append _ _
    · exact List.prefix_refl _
  places t' place there := by
    rw [get?_places_add, if_neg, there]
    rintro rfl
    rw [absent] at there
    cases there

/-! ## The invariant of the tables -/

/-- Every buffer that was brought up is that of a table, and every table is listed. -/
structure Sound (s : SharedTables) : Prop where
  /-- The buffers are those of the tables. -/
  placed : ∀ t place, s.places.get? t = some place ↔
    ∃ b, s.buffers[place]? = some b ∧ b.tableId = t
  /-- The tables of a topic are listed in order. -/
  lists : ∀ topic, s.tablesOf topic =
    (s.buffers.filter fun b => b.topic = topic).map TableBuffer.tableId
  /-- The tables are those that are registered one after the other. -/
  sequential : ∀ thresholds, s.registry thresholds =
    s.buffers.foldl (fun r b => r.register b.tableId b.topic) (.new thresholds)

theorem get?_registry (s : SharedTables) (thresholds : Thresholds) (t : TableId) :
    (s.registry thresholds).get? t =
      (s.places.get? t).map fun place => s.buffers.getD place (.new t "") :=
  SortedMap.get?_mapValues _ _ t

/-- Bringing up a table is registering it. -/
theorem registry_add {s : SharedTables} (sound : s.Sound) {t : TableId}
    (absent : s.places.get? t = none) (topic : String) (thresholds : Thresholds) :
    (s.add t topic).registry thresholds = (s.registry thresholds).register t topic := by
  have unknown : (s.registry thresholds).tables.get? t = none := by
    show (s.registry thresholds).get? t = none
    rw [get?_registry, absent]
    rfl
  have tables : ((s.add t topic).registry thresholds).tables =
      (s.registry thresholds).tables.insert t (.new t topic) := by
    refine SortedMap.ext_get? fun t' => ?_
    have added := get?_registry (s.add t topic) thresholds t'
    have before := get?_registry s thresholds t'
    unfold TableRegistry.get? at added before
    rw [added, get?_places_add, SortedMap.get?_insert, before]
    by_cases same : t' = t
    · simp [same, add]
    · rw [if_neg same, if_neg same]
      cases there : s.places.get? t' with
      | none => rfl
      | some place =>
        obtain ⟨b, held, -⟩ := (sound.placed t' place).1 there
        have inside := (List.getElem?_eq_some_iff.1 held).1
        simp [add, List.getD, List.getElem?_append_left inside]
  have fresh : ¬ (s.registry thresholds).tables.contains t := by simp [SortedMap.contains, unknown]
  rw [TableRegistry.register, if_neg fresh, ← tables]
  rfl

namespace Sound

variable {s : SharedTables}

theorem empty : SharedTables.empty.Sound where
  placed t place := by simp [SharedTables.empty]
  lists _ := rfl
  sequential _ := rfl

theorem add (sound : s.Sound) {t : TableId} (absent : s.places.get? t = none) (topic : String) :
    (s.add t topic).Sound where
  placed t' place := by
    rw [get?_places_add]
    by_cases same : t' = t
    · subst same
      have others : ∀ b, s.buffers[place]? = some b → b.tableId ≠ t' := by
        rintro b held rfl
        rw [(sound.placed _ place).2 ⟨b, held, rfl⟩] at absent
        cases absent
      rw [if_pos rfl, Option.some.injEq]
      constructor
      · rintro rfl
        exact ⟨_, getElem?_buffers_add.2 (.inr ⟨rfl, rfl⟩), rfl⟩
      · rintro ⟨b, held, named⟩
        rcases getElem?_buffers_add.1 held with held | ⟨last, -⟩
        · exact absurd named (others b held)
        · exact last.symm
    · rw [if_neg same, sound.placed]
      refine exists_congr fun b => and_congr_left fun named => ?_
      rw [getElem?_buffers_add]
      refine ⟨.inl, fun held => held.resolve_right ?_⟩
      rintro ⟨-, rfl⟩
      exact same named.symm
  lists fed := by
    rw [tablesOf_add, SharedTables.add]
    by_cases same : fed = topic
    · simp [same, sound.lists, TableBuffer.new]
    · simp [same, Ne.symm same, sound.lists, TableBuffer.new]
  sequential thresholds := by
    rw [registry_add sound absent, sound.sequential]
    simp [SharedTables.add, TableBuffer.new]

/-- A buffer is that of its table. -/
theorem place_unique (sound : s.Sound) {place place' : Nat} {b b' : TableBuffer}
    (held : s.buffers[place]? = some b) (held' : s.buffers[place']? = some b')
    (same : b.tableId = b'.tableId) : place = place' := by
  have there := (sound.placed _ place).2 ⟨b, held, rfl⟩
  have there' := (sound.placed _ place').2 ⟨b', held', rfl⟩
  rw [same] at there
  exact Option.some.inj (there.symm.trans there')

theorem get?_registry_eq_some_iff (sound : s.Sound) {thresholds : Thresholds} {t : TableId}
    {b : TableBuffer} : (s.registry thresholds).get? t = some b ↔
      ∃ place : Nat, s.buffers[place]? = some b ∧ b.tableId = t := by
  rw [get?_registry, Option.map_eq_some_iff]
  constructor
  · rintro ⟨place, there, rfl⟩
    obtain ⟨b, held, named⟩ := (sound.placed t place).1 there
    exact ⟨place, by simp [held], by simp [held, named]⟩
  · rintro ⟨place, held, named⟩
    exact ⟨place, (sound.placed t place).2 ⟨b, held, named⟩, by simp [held]⟩

/-- A table is listed if it is there, under the topic of its buffer. -/
theorem mem_tablesOf_iff (sound : s.Sound) (thresholds : Thresholds) {topic : String}
    {t : TableId} : t ∈ s.tablesOf topic ↔
      ∃ b, (s.registry thresholds).get? t = some b ∧ b.topic = topic := by
  rw [sound.lists, List.mem_map]
  constructor
  · rintro ⟨b, mem, named⟩
    obtain ⟨mem, fed⟩ := List.mem_filter.1 mem
    obtain ⟨place, held⟩ := List.mem_iff_getElem?.1 mem
    exact ⟨b, sound.get?_registry_eq_some_iff.2 ⟨place, held, named⟩, by simpa using fed⟩
  · rintro ⟨b, there, fed⟩
    obtain ⟨place, held, named⟩ := sound.get?_registry_eq_some_iff.1 there
    exact ⟨b, List.mem_filter.2 ⟨List.mem_of_getElem? held, by simpa using fed⟩, named⟩

/-- No table has two buffers. -/
theorem nodup_tables (sound : s.Sound) : (s.buffers.map TableBuffer.tableId).Nodup := by
  rw [List.nodup_iff_getElem?_ne_getElem?]
  intro i j before inside same
  rw [List.length_map] at inside
  have first := List.getElem?_eq_getElem (Nat.lt_trans before inside)
  have second := List.getElem?_eq_getElem inside
  rw [List.getElem?_map, List.getElem?_map, first, second] at same
  have := sound.place_unique first second (Option.some.inj same)
  omega

theorem mem_values_topics {l : List TableId} (mem : l ∈ s.topics.values) :
    ∃ topic, l = s.tablesOf topic := by
  obtain ⟨topic, there⟩ := SortedMap.mem_values_iff.1 mem
  exact ⟨topic, by simp [tablesOf, SortedMap.getD, there]⟩

/-- A table is listed in one list at most, and once in this list. -/
theorem nodup_topics (sound : s.Sound) : s.topics.values.flatten.Nodup := by
  rw [List.nodup_flatten]
  constructor
  · intro l mem
    obtain ⟨topic, rfl⟩ := mem_values_topics mem
    rw [sound.lists]
    exact sound.nodup_tables.sublist (List.filter_sublist.map _)
  · have keys := s.topics.nodup_keys
    unfold SortedMap.keys List.Nodup at keys
    unfold SortedMap.values
    rw [List.pairwise_map] at keys ⊢
    refine keys.imp_of_mem fun {e e'} mem mem' ne t listed listed' => ne ?_
    have lists : ∀ {e}, e ∈ s.topics.entries → s.tablesOf e.1 = e.2 := fun {e} mem => by
      have there := SortedMap.get?_eq_some_iff.2 mem
      simp [tablesOf, SortedMap.getD, there]
    rw [← lists mem, sound.mem_tablesOf_iff ⟨0, 0⟩] at listed
    rw [← lists mem', sound.mem_tablesOf_iff ⟨0, 0⟩] at listed'
    obtain ⟨b, there, fed⟩ := listed
    obtain ⟨b', there', fed'⟩ := listed'
    obtain rfl := Option.some.inj (there.symm.trans there')
    exact fed.symm.trans fed'

/-- The tables that are listed are those that are there. -/
theorem mem_topics_iff (sound : s.Sound) (thresholds : Thresholds) (t : TableId) :
    t ∈ s.topics.values.flatten ↔ ((s.registry thresholds).get? t).isSome := by
  rw [List.mem_flatten, Option.isSome_iff_exists]
  constructor
  · rintro ⟨l, mem, listed⟩
    obtain ⟨topic, rfl⟩ := mem_values_topics mem
    obtain ⟨b, there, -⟩ := (sound.mem_tablesOf_iff thresholds).1 listed
    exact ⟨b, there⟩
  · rintro ⟨b, there⟩
    have listed := (sound.mem_tablesOf_iff thresholds).2 ⟨b, there, rfl⟩
    refine ⟨_, SortedMap.mem_values_iff.2 ⟨b.topic, ?_⟩, listed⟩
    cases known : s.topics.get? b.topic with
    | none => simp [tablesOf, SortedMap.getD, known] at listed
    | some l => simp [tablesOf, SortedMap.getD, known]

end Sound

/-! ## Turns -/

namespace Caller.TurnStep

variable {c c' : Caller} {s s' : SharedTables}

theorem grows (step : c.TurnStep s s' c') : s.Grows s' := by
  cases step with
  | done | found | missed => exact .refl s
  | added absent => exact grows_add absent c.topic

theorem sound (step : c.TurnStep s s' c') (sound : s.Sound) : s'.Sound := by
  cases step with
  | done | found | missed => exact sound
  | added absent => exact sound.add absent c.topic

theorem asks (step : c.TurnStep s s' c') : (c'.table, c'.topic) = (c.table, c.topic) := by
  cases step <;> rfl

theorem advances (step : c.TurnStep s s' c') : min (c.stage.turns + 1) 2 ≤ c'.stage.turns := by
  cases step with
  | done held => simp [held, Stage.turns]
  | found | added => exact Nat.min_le_right _ _
  | missed first => simp [first, Stage.turns]

theorem held (step : c.TurnStep s s' c')
    (held : ∀ place, c.stage = .holding place → s.places.get? c.table = some place) :
    ∀ place, c'.stage = .holding place → s'.places.get? c'.table = some place := by
  intro place h
  cases step with
  | done => exact held place h
  | found there =>
    obtain rfl := Stage.holding.inj h
    exact there
  | missed => cases h
  | added =>
    obtain rfl := Stage.holding.inj h
    rw [get?_places_add, if_pos rfl]

end Caller.TurnStep

namespace Sharing

/-- What the turns of callers leave. -/
structure Sound (requests : List (TableId × String)) (schedule : List Nat) (s : Sharing) :
    Prop where
  /-- The tables are in order. -/
  tables : s.tables.Sound
  /-- The callers ask for what they were to ask for. -/
  asked : s.callers.map (fun c => (c.table, c.topic)) = requests
  /-- A caller that holds a buffer holds that of its table. -/
  held : ∀ c ∈ s.callers, ∀ place, c.stage = .holding place →
    s.tables.places.get? c.table = some place
  /-- Two turns are enough. -/
  served : ∀ i c, s.callers[i]? = some c → min (schedule.count i) 2 ≤ c.stage.turns

variable {requests : List (TableId × String)} {schedule : List Nat} {s : Sharing}

theorem sound_start (requests : List (TableId × String)) :
    Sound requests [] (start requests) where
  tables := .empty
  asked := by simp [start, Function.comp_def]
  held c mem place h := by
    obtain ⟨r, -, rfl⟩ := List.mem_map.1 mem
    cases h
  served := by simp

theorem turn_cases (s : Sharing) (i : Nat) :
    (s.callers[i]? = none ∧ s.turn i = s) ∨
      ∃ c c' tables, s.callers[i]? = some c ∧ c.TurnStep s.tables tables c' ∧
        s.turn i = ⟨tables, s.callers.set i c'⟩ := by
  unfold turn
  cases there : s.callers[i]? with
  | none => exact .inl ⟨rfl, rfl⟩
  | some c => exact .inr ⟨c, _, _, rfl, c.turn_step s.tables, rfl⟩

theorem grows_turn (s : Sharing) (i : Nat) : s.tables.Grows (s.turn i).tables := by
  obtain ⟨-, stays⟩ | ⟨c, c', tables, -, step, turned⟩ := s.turn_cases i
  · rw [stays]
    exact .refl s.tables
  · rw [turned]
    exact step.grows

theorem Sound.turn (sound : Sound requests schedule s) (i : Nat) :
    Sound requests (schedule ++ [i]) (s.turn i) := by
  obtain ⟨none, stays⟩ | ⟨c, c', tables, there, step, turned⟩ := s.turn_cases i
  · rw [stays]
    refine ⟨sound.tables, sound.asked, sound.held, fun j c' there => ?_⟩
    have other : i ≠ j := by
      rintro rfl
      rw [none] at there
      cases there
    simpa [List.count_append, List.count_singleton, other] using sound.served j c' there
  · rw [turned]
    have mem := List.mem_of_getElem? there
    refine ⟨step.sound sound.tables, ?_, fun d hd => ?_, fun j d hd => ?_⟩
    · rw [← sound.asked, List.map_set, step.asks]
      refine List.ext_getElem? fun j => ?_
      rw [List.getElem?_set]
      split
      · rename_i same
        subst same
        split <;> simp_all
      · rfl
    · rcases List.mem_or_eq_of_mem_set hd with hd | rfl
      · exact fun place held => step.grows.places _ _ (sound.held d hd place held)
      · exact step.held (sound.held c mem)
    · by_cases same : i = j
      · subst same
        have inside := (List.getElem?_eq_some_iff.1 there).1
        rw [List.getElem?_set_self inside] at hd
        obtain rfl := Option.some.inj hd
        have before := sound.served i c there
        have after := step.advances
        rw [List.count_append, List.count_singleton_self]
        omega
      · rw [List.getElem?_set_ne same] at hd
        simpa [List.count_append, List.count_singleton, same] using sound.served j d hd

theorem run_concat (requests : List (TableId × String)) (schedule : List Nat) (i : Nat) :
    run requests (schedule ++ [i]) = (run requests schedule).turn i :=
  List.foldl_append

theorem sound_run (requests : List (TableId × String)) (schedule : List Nat) :
    Sound requests schedule (run requests schedule) := by
  induction schedule using List.reverseRecOn with
  | nil => exact sound_start requests
  | append_singleton schedule i ih =>
    rw [run_concat]
    exact ih.turn i

theorem grows_run (requests : List (TableId × String)) (schedule more : List Nat) :
    (run requests schedule).tables.Grows (run requests (schedule ++ more)).tables := by
  induction more using List.reverseRecOn with
  | nil =>
    rw [List.append_nil]
    exact .refl _
  | append_singleton more i ih =>
    rw [← List.append_assoc, run_concat]
    exact ih.trans (grows_turn _ i)

end Sharing

/-- Tables that become more keep the buffers that they have. -/
theorem Grows.get?_registry {s s' : SharedTables} (grows : s.Grows s') (sound : s.Sound)
    (sound' : s'.Sound) {thresholds : Thresholds} {t : TableId} {b : TableBuffer}
    (there : (s.registry thresholds).get? t = some b) :
    (s'.registry thresholds).get? t = some b := by
  obtain ⟨place, held, named⟩ := sound.get?_registry_eq_some_iff.1 there
  have inside := (List.getElem?_eq_some_iff.1 held).1
  obtain ⟨more, same⟩ := grows.buffers
  refine sound'.get?_registry_eq_some_iff.2 ⟨place, ?_, named⟩
  rw [← same, List.getElem?_append_left inside, held]

/-- Everyone who asks for a table gets its buffer, whatever the order of the turns, and every table
is listed once and for all. -/
theorem shares_tables (requests : List (TableId × String)) (schedule : List Nat)
    (thresholds : Thresholds) :
    SharesTables requests schedule thresholds (Sharing.run requests schedule)
      ((Sharing.run requests schedule).tables.registry thresholds) := by
  have sound := Sharing.sound_run requests schedule
  generalize state : Sharing.run requests schedule = s at sound
  refine
    { asked := sound.asked
      served := fun i c there twice => ?_
      held := fun c mem place h => ?_
      same := fun c mem c' mem' asked place place' h h' => ?_
      sequential := sound.tables.sequential thresholds
      once := fun t => ?_
      listed := fun topic t => sound.tables.mem_tablesOf_iff thresholds
      ordered := sound.tables.lists
      stays := fun more => ?_ }
  · have turns := sound.served i c there
    cases stage : c.stage with
    | holding place => exact ⟨place, rfl⟩
    | asking | missing =>
      simp only [stage, Stage.turns] at turns
      omega
  · obtain ⟨b, held, named⟩ := (sound.tables.placed _ _).1 (sound.held c mem place h)
    exact ⟨b, held, sound.tables.get?_registry_eq_some_iff.2 ⟨place, held, named⟩, named⟩
  · have there := sound.held c mem place h
    have there' := sound.held c' mem' place' h'
    rw [asked] at there
    exact Option.some.inj (there.symm.trans there')
  · exact sound.tables.nodup_topics.count.trans
      (if_congr (sound.tables.mem_topics_iff thresholds t) rfl rfl)
  · have grows := Sharing.grows_run requests schedule more
    rw [state] at grows
    have sound' := (Sharing.sound_run requests (schedule ++ more)).tables
    exact ⟨grows.lists, fun t b there => grows.get?_registry sound.tables sound' there⟩

/-- Two callers name different topics for a table, and neither finds it.  The second one is first to
bring it up, so it belongs to the topic that the second one names. -/
example :
    let orders : TableId := ⟨"public", "orders"⟩
    let s := Sharing.run [(orders, "retail"), (orders, "online")] [0, 1, 1, 0]
    s.callers.map Caller.stage = [.holding 0, .holding 0] ∧
      s.tables.tablesOf "retail" = [] ∧ s.tables.tablesOf "online" = [orders] := by
  decide +kernel

end SharedTables

end ChangeCapture

import ChangeCapture.Debezium.Conversion
import ChangeCapture.Proofs.Calendar.Texts
import ChangeCapture.Proofs.RowEvent.Ordering

/-!
# Dates and times are converted exactly

The values of five types count days or time units from an epoch (`Epoch`).  A count is
converted if and only if its type covers it, and the text is one from which the count is
read back (`Epoch.converts`).  So no count is changed on the way, and no two counts of a
type have one text (`Epoch.convertsExactly`).

The text is also taken for what the type declares (`Epoch.kindsAgree`): a column has the
same kind whether a schema names it or the values tell.
-/

namespace ChangeCapture.Debezium

open Calendar

/-- The types whose values count days or time units. -/
inductive Epoch where
  /-- Days since 1970. -/
  | date
  /-- Milliseconds since midnight. -/
  | time
  /-- Microseconds since midnight. -/
  | microTime
  /-- Milliseconds since 1970. -/
  | timestamp
  /-- Microseconds since 1970. -/
  | microTimestamp
  deriving DecidableEq, Repr

namespace Epoch

/-- The logical type. -/
def logicalType : Epoch → LogicalType
  | date => .date
  | time => .time
  | microTime => .microTime
  | timestamp => .timestamp
  | microTimestamp => .microTimestamp

/-- What a column of the type holds. -/
def timeKind : Epoch → TimeKind
  | date => .date
  | time | microTime => .time
  | timestamp | microTimestamp => .timestampNtz

/-- The counts that have a text: the days of the years that are supported, the times of one day, and
the points in time of those years. -/
def Covers : Epoch → Int → Prop
  | date, n => Date.firstDay.elapsed ≤ n ∧ n ≤ Date.lastDay.elapsed
  | time, n => 0 ≤ n ∧ n < 86400000
  | microTime, n => 0 ≤ n ∧ n < 86400000000
  | timestamp, n =>
    Date.firstDay.elapsed * 86400000 ≤ n ∧ n < (Date.lastDay.elapsed + 1) * 86400000
  | microTimestamp, n =>
    Date.firstDay.elapsed * 86400000000 ≤ n ∧ n < (Date.lastDay.elapsed + 1) * 86400000000

/-- The count that is read off a text, in the unit of the type. -/
def read? : Epoch → List Char → Option ℚ
  | date, cs => readWhole? days cs
  | time, cs => (readWhole? clock cs).map (· * 1000)
  | microTime, cs => (readWhole? clock cs).map (· * 1000000)
  | timestamp, cs => (readWhole? seconds cs).map (· * 1000)
  | microTimestamp, cs => (readWhole? seconds cs).map (· * 1000000)

/-! ## Counts -/

/-- The text of a count. -/
def textOf? : Epoch → Int → Option String
  | date, n => dateOfDays? n
  | time, n => timeOfDay? .millis (clamp64 (n * 1000))
  | microTime, n => timeOfDay? .micros n
  | timestamp, n => timestamp? .millis (n * 1000)
  | microTimestamp, n => timestamp? .micros n

variable {e : Epoch} {f : Field}

theorem kind_eq (type : f.logicalType = some e.logicalType) :
    f.kind = .extendedTime e.timeKind := by
  cases e <;> simp only [Field.kind, type, logicalType, timeKind]

/-- A value is converted by its count. -/
theorem converted?_eq (type : f.logicalType = some e.logicalType) (v : Json) :
    converted? f v = ((count? v).bind e.textOf?).map Json.string := by
  cases e <;>
    simp only [converted?, type, logicalType, Option.map_eq_bind, Option.bind_eq_bind,
      Option.bind_assoc] <;> rfl

/-- What becomes of a count: a text from which the number is read and which is taken for a kind, or
nothing if the count is not covered. -/
inductive Conversion (covers : Prop) (reader : List Char → Option ℚ) (x : ℚ) (kind : TimeKind) :
    Option String → Prop where
  /-- The count is covered. -/
  | text (cs : List Char) (covered : covers) (reads : reader cs = some x)
      (suggests : ColumnKind.ofText (String.ofList cs) = .extendedTime kind) :
      Conversion covers reader x kind (some (String.ofList cs))
  /-- The count is out of range. -/
  | outOfRange (far : ¬ covers) : Conversion covers reader x kind none

/-- A reading in another unit. -/
theorem Conversion.scale {covers covers' : Prop} {reader : List Char → Option ℚ} {x y : ℚ}
    {kind : TimeKind} {text? : Option String} (h : Conversion covers reader x kind text?)
    (same : covers ↔ covers') (c : ℚ) (product : covers → x * c = y) :
    Conversion covers' (fun cs => (reader cs).map (· * c)) y kind text? := by
  cases h with
  | text cs covered reads suggests =>
    refine .text cs (same.1 covered) ?_ suggests
    rw [reads, Option.map_some, product covered]
  | outOfRange far => exact .outOfRange (mt same.2 far)

theorem conversion_dateOfDays? (n : Int) :
    Conversion (date.Covers n) (readWhole? days) n .date (dateOfDays? n) := by
  rw [dateOfDays?]
  rcases Date.ofDayNumber?_cases n with ⟨d, supported, elapsed, date, within⟩ | ⟨none, far⟩
  · rw [date]
    refine .text _ within ?_ (ColumnKind.ofText_dateText supported)
    rw [readWhole?_dateText supported, elapsed]
  · rw [none]
    exact .outOfRange far

theorem conversion_timeOfDay? (p : Precision) (micros : Int)
    (fits : microTime.Covers micros → p.Fits micros) :
    Conversion (microTime.Covers micros) (readWhole? clock) (micros / 1000000) .time
      (timeOfDay? p micros) := by
  rw [timeOfDay?]
  split
  · rename_i covered
    have less : micros < 86400000000 := covered.2
    obtain ⟨n, rfl⟩ := Int.eq_ofNat_of_zero_le covered.1
    have day : n < 86400000000 := by omega
    rw [Int.toNat_natCast]
    refine .text _ covered ?_ (ColumnKind.ofText_timeText p day)
    rw [readWhole?_timeText day (fits covered), Int.cast_natCast]
  · rename_i far
    exact .outOfRange far

theorem conversion_timestamp? (p : Precision) (micros : Int)
    (fits : microTimestamp.Covers micros → p.Fits micros) :
    Conversion (microTimestamp.Covers micros) (readWhole? seconds) (micros / 1000000)
      .timestampNtz (timestamp? p micros) := by
  have day : date.Covers (micros / microsPerDay) ↔ microTimestamp.Covers micros := by
    simp only [Covers, microsPerDay]
    omega
  rw [timestamp?, split?]
  rcases Date.ofDayNumber?_cases (micros / microsPerDay) with
    ⟨d, supported, elapsed, date, within⟩ | ⟨none, far⟩
  · have covered := day.1 within
    obtain ⟨n, hn⟩ : ∃ n : Nat, (n : Int) = micros % microsPerDay :=
      ⟨(micros % microsPerDay).toNat, Int.toNat_of_nonneg (Int.emod_nonneg _ (by decide))⟩
    have less : n < 86400000000 := by
      rw [microsPerDay] at hn
      omega
    have total : micros = d.elapsed * 86400000000 + n := by
      rw [elapsed, hn, microsPerDay]
      omega
    have fitting : p.Fits n := by
      intro millis
      have thousand := fits covered millis
      omega
    rw [date, ← hn]
    show Conversion _ _ _ _ (some (String.ofList (timestampText p d n)))
    refine .text _ covered ?_ (ColumnKind.ofText_timestampText supported p less)
    rw [readWhole?_timestampText supported less fitting, total]
    push_cast
    congr 1
    ring
  · rw [none]
    exact .outOfRange (mt day.2 far)

/-- The count of a type is in range, has a text from which it is read, and is taken for what the
type declares; or it is out of range. -/
theorem converts (e : Epoch) (n : Int) :
    Conversion (e.Covers n) e.read? n e.timeKind (e.textOf? n) := by
  cases e with
  | date => exact conversion_dateOfDays? n
  | time =>
    have day : microTime.Covers (clamp64 (n * 1000)) ↔ time.Covers n := by
      simp only [Covers, clamp64]
      omega
    have micros : microTime.Covers (clamp64 (n * 1000)) → clamp64 (n * 1000) = n * 1000 := by
      simp only [Covers, clamp64]
      omega
    refine (conversion_timeOfDay? .millis _ ?_).scale day 1000 ?_
    · intro covered _
      rw [micros covered]
      omega
    · intro covered
      rw [micros covered]
      push_cast
      ring
  | microTime =>
    refine (conversion_timeOfDay? .micros n fun _ => nofun).scale Iff.rfl 1000000 ?_
    intro _
    ring
  | timestamp =>
    have scaled : microTimestamp.Covers (n * 1000) ↔ timestamp.Covers n := by
      simp only [Covers]
      omega
    refine (conversion_timestamp? .millis (n * 1000) ?_).scale scaled 1000 ?_
    · intro _ _
      omega
    · intro _
      push_cast
      ring
  | microTimestamp =>
    refine (conversion_timestamp? .micros n fun _ => nofun).scale Iff.rfl 1000000 ?_
    intro _
    ring

/-! ## Values -/

/-- A value is converted if and only if its type covers its count. -/
theorem conversion_converted? (type : f.logicalType = some e.logicalType) {v : Json} {raw : Int}
    (counted : count? v = some raw) :
    ∃ text?, converted? f v = text?.map Json.string ∧
      Conversion (e.Covers raw) e.read? raw e.timeKind text? :=
  ⟨e.textOf? raw, by rw [converted?_eq type, counted, Option.bind_some], e.converts raw⟩

/-- What a value was converted to. -/
theorem text_of_converted? (type : f.logicalType = some e.logicalType) {v v' : Json}
    (h : converted? f v = some v') :
    ∃ raw cs, count? v = some raw ∧ v' = .string (String.ofList cs) ∧ e.Covers raw ∧
      e.read? cs = some (raw : ℚ) ∧
      ColumnKind.ofText (String.ofList cs) = .extendedTime e.timeKind := by
  cases counted : count? v with
  | none =>
    rw [converted?_eq type, counted] at h
    cases h
  | some raw =>
    obtain ⟨text?, same, conversion⟩ := conversion_converted? type counted
    rw [same] at h
    cases conversion with
    | text cs covered reads suggests =>
      exact ⟨raw, cs, rfl, (Option.some.inj h).symm, covered, reads, suggests⟩
    | outOfRange far => cases h

/-- The values of a type are converted exactly. -/
structure ConvertsExactly (e : Epoch) : Prop where
  /-- Every integer of 64 bits is a count. -/
  counts : ∀ raw : Int64, count? (.int raw.toInt) = some raw.toInt
  /-- A value whose count is covered becomes a text, from which the count is read. -/
  reads : ∀ (f : Field) (v : Json) (raw : Int), f.logicalType = some e.logicalType →
    count? v = some raw → e.Covers raw →
    ∃ text : String, converted? f v = some (.string text) ∧ e.read? text.toList = some (raw : ℚ)
  /-- A value whose count is not covered is out of range. -/
  refuses : ∀ (f : Field) (v : Json) (raw : Int), f.logicalType = some e.logicalType →
    count? v = some raw → ¬ e.Covers raw → converted? f v = none
  /-- Values with distinct counts become distinct texts. -/
  distinct : ∀ (f f' : Field) (u v w : Json), f.logicalType = some e.logicalType →
    f'.logicalType = some e.logicalType → converted? f u = some w → converted? f' v = some w →
    count? u = count? v

/-- The values of each of the types are converted exactly. -/
theorem convertsExactly (e : Epoch) : e.ConvertsExactly := by
  refine ⟨fun raw => ?_, fun f v raw type counted covered => ?_,
    fun f v raw type counted far => ?_, fun f f' u v w type type' hu hv => ?_⟩
  · have low := raw.le_toInt
    have high := raw.toInt_lt
    simp only [count?, clamp64, Option.some.injEq]
    omega
  · obtain ⟨text?, same, conversion⟩ := conversion_converted? type counted
    cases conversion with
    | text cs _ reads _ => exact ⟨_, same, by rw [String.toList_ofList, reads]⟩
    | outOfRange far => exact absurd covered far
  · obtain ⟨text?, same, conversion⟩ := conversion_converted? type counted
    cases conversion with
    | text cs covered => exact absurd covered far
    | outOfRange _ => exact same
  · obtain ⟨m, cs, hm, rfl, -, first, -⟩ := text_of_converted? type hu
    obtain ⟨n, ds, hn, same, -, second, -⟩ := text_of_converted? type' hv
    have texts := String.ofList_injective (Json.string.inj same)
    rw [texts, second] at first
    have counts : n = m := by exact_mod_cast Option.some.inj first
    rw [hm, hn, counts]

example : microTimestamp.textOf? (-1) = some "1969-12-31T23:59:59.999999" := by decide +kernel

/-! ## Kinds -/

/-- A text that has the kind of dates or times is not the placeholder. -/
theorem standsForUnavailable_of_ofText {s : String} {kind : TimeKind}
    (h : ColumnKind.ofText s = .extendedTime kind) :
    (Json.string s).standsForUnavailable = false := by
  have placeholder : ColumnKind.ofText Json.unavailable = .string := by decide +kernel
  have other : s ≠ Json.unavailable := by
    rintro rfl
    rw [placeholder] at h
    cases h
  simp [Json.standsForUnavailable, Json.isPlaceholder, other, Json.field?]

theorem infer_converted? (type : f.logicalType = some e.logicalType) {v v' : Json}
    (h : converted? f v = some v') {hints : Option KindHints} {column : String}
    (unhinted : hints.bind (·.get? column) = none) :
    ColumnKind.infer hints column v' = f.kind := by
  obtain ⟨raw, cs, -, rfl, -, -, suggests⟩ := text_of_converted? type h
  simp only [ColumnKind.infer, unhinted, ColumnKind.ofValue, suggests, kind_eq type]

/-- A value that was converted suggests the kind that its field declares. -/
theorem suggests_converted? (type : f.logicalType = some e.logicalType) {v : Json}
    {u : String × Json} (h : converted? f v = some u.2) :
    ColumnRegistry.Suggests none u f.kind := by
  obtain ⟨raw, cs, -, text, -, -, suggests⟩ := text_of_converted? type h
  refine ⟨?_, infer_converted? type h rfl, ?_⟩
  · rw [text]
    exact standsForUnavailable_of_ofText suggests
  · rw [kind_eq type]
    exact nofun

/-- Of fields whose names come to one, the first declares the column. -/
theorem facts?_columns {fs : List Field} {n : String} (named : n ≠ "")
    (first : fs.find? (fun g => ColumnName.normalize g.name == n) = some f) :
    (Field.columns fs).facts? n = some ⟨f.kind, false⟩ := by
  have none : ColumnRegistry.empty.get? n = none := rfl
  have found : (fs.map fun g => Column.new (ColumnName.normalize g.name) g.kind).find?
      (·.name == n) = some (.new (ColumnName.normalize f.name) f.kind) := by
    rw [List.find?_map]
    exact congrArg _ first
  rw [ColumnRegistry.facts?, Field.columns, ColumnRegistry.ofList,
    ColumnRegistry.get?_addAll _ _ named, none, found]
  rfl

open RowEvent (visit under)

/-- The kinds of a type agree: a column has the kind that its field declares also if only its values
tell. -/
structure KindsAgree (e : Epoch) : Prop where
  /-- What a value is converted to has the kind of its field, if there is no hint. -/
  infers : ∀ (f : Field) (v v' : Json), f.logicalType = some e.logicalType →
    converted? f v = some v' → ∀ (hints : Option KindHints) (column : String),
    hints.bind (·.get? column) = none → ColumnKind.infer hints column v' = f.kind
  /-- Visits of the same values, some of them of the column of a field and these converted, leave
  the column with one kind: if they start without columns and hints, and if they start with the
  columns that the fields declare. -/
  columns : ∀ (fs : List Field) (f : Field) (n : String) (hints : Option KindHints)
    (entries : List (String × Json)) (row row₁ row₂ : Row),
    f.logicalType = some e.logicalType → n ≠ "" →
    fs.find? (fun g => ColumnName.normalize g.name == n) = some f →
    under n entries ≠ [] → (∀ u ∈ under n entries, ∃ v, converted? f v = some u.2) →
    (visit none .empty row entries).2 = .ok row₁ →
    (visit hints (Field.columns fs) row entries).2 = .ok row₂ →
    ((visit none .empty row entries).1.facts? n).map Column.Facts.kind = some f.kind ∧
      ((visit hints (Field.columns fs) row entries).1.facts? n).map Column.Facts.kind =
        some f.kind

/-- The kinds of each of the types agree. -/
theorem kindsAgree (e : Epoch) : e.KindsAgree := by
  refine ⟨fun f v v' type h hints column unhinted => infer_converted? type h unhinted,
    fun fs f n hints entries row row₁ row₂ type named first there converted inferred declared => ?_⟩
  have suggests : ∀ u ∈ under n entries, ColumnRegistry.Suggests none u f.kind := by
    intro u mem
    obtain ⟨v, hv⟩ := converted u mem
    exact suggests_converted? type hv
  constructor
  · obtain ⟨u, mem⟩ := List.exists_mem_of_ne_nil _ there
    have absent : ColumnRegistry.IsOpen n (ColumnRegistry.empty.facts? n) := named
    obtain ⟨facts, told, kind⟩ := ColumnRegistry.foldl_see_of_agreed absent
      ⟨u, mem, suggests u mem⟩
      fun u mem kind' other => other.inferred.symm.trans (suggests u mem).inferred
    rw [RowEvent.facts?_visit inferred, told]
    exact congrArg _ kind
  · have typed : f.kind ≠ .invalid := by
      rw [kind_eq type]
      exact nofun
    obtain ⟨facts, told, kind⟩ : ∃ g, (under n entries).foldl (ColumnRegistry.see hints n)
        (some ⟨f.kind, false⟩) = some g ∧ g.kind = f.kind :=
      ColumnRegistry.foldl_see_of_typed typed _
    rw [RowEvent.facts?_visit declared, facts?_columns named first, told]
    exact congrArg _ kind

end Epoch

end ChangeCapture.Debezium

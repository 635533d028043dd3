import ChangeCapture.Proofs.Debezium.Envelope
import Mathlib.Data.List.TakeDrop
import Mathlib.Data.List.TakeWhile

/-!
# Keys between braces

A key between braces is read if and only if it has a body and each of the parts
between its commas has an equals sign (`Debezium.readKey_string_iff`).  Named
values are read back from the key that is written of them, as long as commas and
equals signs stand only where they do not divide (`Debezium.readKey_string_exact`).  Commas
are not escaped in a key, so a value with one is beyond what it can say.
-/

namespace ChangeCapture.Debezium

/-! ## Texts of keys -/

/-- A body between the braces of a key. -/
def inBraces (body : String) : String := "Struct\x7b" ++ body ++ "\x7d"

/-- A body that is not empty, and whose parts between commas all have an equals sign. -/
structure IsBody (body : String) : Prop where
  /-- The body is not empty. -/
  nonempty : body ≠ ""
  /-- Each part has an equals sign. -/
  signs : ∀ part ∈ body.toList.splitOn ',', '=' ∈ part

/-- A name with its value. -/
def pairText (e : String × String) : String := e.1 ++ "=" ++ e.2

/-- The body of names with their values. -/
def bodyText (pairs : List (String × String)) : String := ",".intercalate (pairs.map pairText)

/-- Names with values that a key can say, each of which names a column of its own. -/
structure AreSayable (pairs : List (String × String)) : Prop where
  /-- There is a name. -/
  nonempty : pairs ≠ []
  /-- No name has a comma. -/
  names : ∀ e ∈ pairs, ',' ∉ e.1.toList
  /-- No name has an equals sign. -/
  plain : ∀ e ∈ pairs, '=' ∉ e.1.toList
  /-- No value has a comma. -/
  values : ∀ e ∈ pairs, ',' ∉ e.2.toList
  /-- The names name different columns. -/
  distinct : (pairs.map fun e => ColumnName.normalize e.1).Nodup
  /-- No name is the one that tells the table of the row. -/
  columns : ∀ e ∈ pairs, e.1 ≠ tableField

/-! ## Parts -/

theorem splitAt_eq (separator : Char) (part cs : List Char) :
    splitAt separator part cs = List.splitOnPPrepend (· == separator) cs part := by
  induction cs generalizing part with
  | nil => rfl
  | cons c rest ih =>
    by_cases same : c = separator
    · simp [splitAt, List.splitOnPPrepend, same, ih]
    · simp [splitAt, List.splitOnPPrepend, same, ih]

/-- The parts of a text are those that the library splits it into. -/
theorem splitAt_nil (separator : Char) (cs : List Char) :
    splitAt separator [] cs = cs.splitOn separator :=
  splitAt_eq separator [] cs

theorem bne_of_not_mem {sign : Char} {cs : List Char} (plain : sign ∉ cs) :
    ∀ c ∈ cs, (c != sign) = true := by
  intro c mem
  rw [bne_iff_ne]
  rintro rfl
  exact plain mem

/-- The first equals sign divides a pair. -/
theorem pair_append {name : List Char} (plain : '=' ∉ name) (value : List Char) :
    pair (name ++ '=' :: value) = .ok (String.ofList name, .string (String.ofList value)) := by
  have stays := bne_of_not_mem plain
  have divided : (name ++ '=' :: value).span (· != '=') = (name, '=' :: value) := by
    rw [List.span_eq_takeWhile_dropWhile, List.takeWhile_append_of_pos stays,
      List.dropWhile_append_of_pos stays]
    simp
  simp only [pair, divided]

/-- A pair is read if and only if it has an equals sign. -/
theorem pair_isOk_iff {cs : List Char} : (∃ e, pair cs = .ok e) ↔ '=' ∈ cs := by
  constructor
  · rintro ⟨e, h⟩
    by_contra none
    have stays := bne_of_not_mem none
    have whole : cs.span (· != '=') = (cs, []) := by
      rw [List.span_eq_takeWhile_dropWhile, List.takeWhile_eq_self_iff.2 stays,
        List.dropWhile_eq_nil_iff.2 stays]
    simp only [pair, whole] at h
    cases h
  · intro mem
    obtain ⟨name, value, rfl, plain⟩ := List.eq_append_cons_of_mem mem
    exact ⟨_, pair_append plain value⟩

section Lists

variable {α β : Type} {f : α → Outcome β}

theorem mapM_isOk_iff {xs : List α} :
    (∃ ys, xs.mapM f = .ok ys) ↔ ∀ x ∈ xs, ∃ y, f x = .ok y := by
  induction xs with
  | nil => exact ⟨fun _ x mem => (List.not_mem_nil mem).elim, fun _ => ⟨[], rfl⟩⟩
  | cons x rest ih =>
    rw [List.mapM_cons, List.forall_mem_cons, ← ih]
    constructor
    · rintro ⟨ys, h⟩
      obtain ⟨y, first, h⟩ := Outcome.bind_eq_ok.1 h
      obtain ⟨ys, others, -⟩ := Outcome.bind_eq_ok.1 h
      exact ⟨⟨y, first⟩, ys, others⟩
    · rintro ⟨⟨y, first⟩, ys, others⟩
      exact ⟨y :: ys, Outcome.bind_eq_ok.2 ⟨y, first, Outcome.bind_eq_ok.2 ⟨ys, others, rfl⟩⟩⟩

theorem mapM_eq_map {xs : List α} {g : α → β} (each : ∀ x ∈ xs, f x = .ok (g x)) :
    xs.mapM f = .ok (xs.map g) := by
  induction xs with
  | nil => rfl
  | cons x rest ih =>
    obtain ⟨first, others⟩ := List.forall_mem_cons.1 each
    rw [List.mapM_cons, first, ih others]
    rfl

end Lists

/-! ## Braces -/

theorem insideBraces?_eq_some_iff {key body : String} :
    insideBraces? key.toList = some body.toList ↔ key = inBraces body := by
  have toList : (inBraces body).toList =
      'S' :: 't' :: 'r' :: 'u' :: 'c' :: 't' :: '\x7b' :: (body.toList ++ ['\x7d']) := by
    simp [inBraces]
  rw [← String.toList_inj, toList]
  constructor
  · intro h
    unfold insideBraces? at h
    split at h
    · rename_i rest hkey
      split at h
      · rename_i last
        rw [hkey, ← Option.some.inj h, List.dropLast_append_getLast? _ last]
      · cases h
    · cases h
  · intro h
    rw [h]
    simp [insideBraces?]

/-- A key between braces is read if it has a body, and if each part of the body is a pair. -/
theorem bracedKey_inBraces {body : String} (nonempty : body ≠ "") :
    bracedKey (inBraces body) =
      (body.toList.splitOn ',').mapM pair >>= fun pairs =>
        .ok (keyColumns (SortedMap.ofList pairs).entries) := by
  have long : ¬ (inBraces body).utf8ByteSize < minBracedBytes := by
    have size : body.utf8ByteSize ≠ 0 := mt String.utf8ByteSize_eq_zero_iff.1 nonempty
    have braces : ("Struct\x7b" : String).utf8ByteSize = 7 ∧ ("\x7d" : String).utf8ByteSize = 1 :=
      ⟨rfl, rfl⟩
    rw [inBraces, String.utf8ByteSize_append, String.utf8ByteSize_append, minBracedBytes]
    omega
  rw [bracedKey, if_neg long, insideBraces?_eq_some_iff.2 rfl]
  simp only [splitAt_nil]

theorem bracedKey_isOk_iff {key : String} :
    (∃ columns, bracedKey key = .ok columns) ↔ ∃ body, key = inBraces body ∧ IsBody body := by
  constructor
  · rintro ⟨columns, h⟩
    have read := h
    unfold bracedKey at h
    split at h
    · cases h
    · rename_i long
      split at h
      · cases h
      · rename_i inner hinner
        obtain ⟨body, rfl⟩ : ∃ body : String, inner = body.toList :=
          ⟨String.ofList inner, String.toList_ofList.symm⟩
        obtain rfl := insideBraces?_eq_some_iff.1 hinner
        have nonempty : body ≠ "" := by
          rintro rfl
          exact long (by decide)
        rw [bracedKey_inBraces nonempty] at read
        obtain ⟨pairs, hpairs, -⟩ := Outcome.bind_eq_ok.1 read
        have each := mapM_isOk_iff.1 ⟨pairs, hpairs⟩
        exact ⟨body, rfl, nonempty, fun part mem => pair_isOk_iff.1 (each part mem)⟩
  · rintro ⟨body, rfl, nonempty, signs⟩
    obtain ⟨pairs, hpairs⟩ :=
      mapM_isOk_iff.2 fun part mem => pair_isOk_iff.2 (signs part mem)
    rw [bracedKey_inBraces nonempty]
    exact ⟨_, Outcome.bind_eq_ok.2 ⟨pairs, hpairs, rfl⟩⟩

/-! ## Bytes -/

theorem fromUTF8?_toUTF8 (s : String) : String.fromUTF8? s.toUTF8 = some s := by
  have valid : s.toUTF8.IsValidUTF8 := s.isValidUTF8
  unfold String.fromUTF8?
  rw [dif_pos valid]
  rfl

theorem eq_toUTF8_of_fromUTF8? {bytes : ByteArray} {s : String}
    (h : String.fromUTF8? bytes = some s) : bytes = s.toUTF8 := by
  unfold String.fromUTF8? at h
  split at h
  · rw [← Option.some.inj h]
    rfl
  · cases h

theorem readKey_toUTF8 {key : String} (nonempty : key ≠ "") :
    readKey .string key.toUTF8 = bracedKey key := by
  have bytes : key.toUTF8.isEmpty = false := by
    simpa [ByteArray.isEmpty] using nonempty
  rw [readKey, bytes, if_neg Bool.false_ne_true]
  simp only [fromUTF8?_toUTF8]

theorem inBraces_ne_empty (body : String) : inBraces body ≠ "" := by
  intro h
  have := congrArg String.toList h
  simp [inBraces] at this

/-- Bytes are read as a key between braces if and only if they are the text of a body between
braces. -/
theorem readKey_string_iff {bytes : ByteArray} :
    (∃ columns, readKey .string bytes = .ok columns) ↔
      ∃ body, bytes = (inBraces body).toUTF8 ∧ IsBody body := by
  constructor
  · rintro ⟨columns, h⟩
    unfold readKey at h
    split at h
    · cases h
    · simp only at h
      split at h
      · cases h
      · rename_i key text
        obtain ⟨body, rfl, isBody⟩ := bracedKey_isOk_iff.1 ⟨columns, h⟩
        exact ⟨body, eq_toUTF8_of_fromUTF8? text, isBody⟩
  · rintro ⟨body, rfl, isBody⟩
    rw [readKey_toUTF8 (inBraces_ne_empty body)]
    exact bracedKey_isOk_iff.2 ⟨body, rfl, isBody⟩

/-! ## Written keys -/

namespace AreSayable

variable {pairs : List (String × String)}

/-- The parts of the body are the pairs. -/
theorem parts (h : AreSayable pairs) :
    (bodyText pairs).toList.splitOn ',' = pairs.map fun e => (pairText e).toList := by
  have commas : ∀ part ∈ pairs.map (fun e => (pairText e).toList), ',' ∉ part := by
    intro part mem
    obtain ⟨e, known, rfl⟩ := List.mem_map.1 mem
    simp [pairText, h.names e known, h.values e known]
  have text : (bodyText pairs).toList =
      [','].intercalate (pairs.map fun e => (pairText e).toList) := by
    rw [bodyText, String.toList_intercalate, List.map_map]
    rfl
  rw [text, List.splitOn_intercalate ',' commas (by simpa using h.nonempty)]

theorem body_ne_empty (h : AreSayable pairs) : bodyText pairs ≠ "" := by
  intro empty
  have parts := h.parts
  rw [empty] at parts
  obtain ⟨e, rest, rfl⟩ := List.exists_cons_of_ne_nil h.nonempty
  simp [pairText] at parts

/-- The pairs are read back from the parts. -/
theorem mapM_pair (h : AreSayable pairs) :
    ((bodyText pairs).toList.splitOn ',').mapM pair =
      .ok (pairs.map fun e => (e.1, Json.string e.2)) := by
  rw [h.parts, List.mapM_map]
  refine mapM_eq_map fun e mem => ?_
  have text : (pairText e).toList = e.1.toList ++ '=' :: e.2.toList := by simp [pairText]
  rw [Function.comp_apply, text, pair_append (h.plain e mem), String.ofList_toList,
    String.ofList_toList]

theorem eq_of_normalize (h : AreSayable pairs) {e e' : String × String} (mem : e ∈ pairs)
    (mem' : e' ∈ pairs) (same : ColumnName.normalize e.1 = ColumnName.normalize e'.1) : e = e' :=
  List.inj_on_of_nodup_map h.distinct mem mem' same

/-- The entries of the pairs are the pairs, since no name stands in two of them. -/
theorem mem_entries (h : AreSayable pairs) {name : String} {v : Json} :
    (name, v) ∈ (SortedMap.ofList (pairs.map fun e => (e.1, Json.string e.2))).entries ↔
      ∃ e ∈ pairs, e.1 = name ∧ .string e.2 = v := by
  have listed : ∀ v, (name, v) ∈ pairs.map (fun e => (e.1, Json.string e.2)) ↔
      ∃ e ∈ pairs, e.1 = name ∧ .string e.2 = v := fun v => by simp
  rw [← SortedMap.toList, ← SortedMap.get?_eq_some_iff, ← listed]
  refine ⟨SortedMap.mem_of_get?_ofList, fun mem => SortedMap.get?_ofList_of_unique mem ?_⟩
  intro u mem'
  obtain ⟨e, known, rfl, rfl⟩ := (listed v).1 mem
  obtain ⟨e', known', same, rfl⟩ := (listed u).1 mem'
  rw [h.eq_of_normalize known' known (congrArg _ same)]

/-- A key that is written of names with their values is read back to these. -/
theorem readKey (h : AreSayable pairs) :
    ∃ columns, readKey .string (inBraces (bodyText pairs)).toUTF8 = .ok columns ∧
      ∀ column v, columns.get? column = some v ↔
        ∃ e ∈ pairs, ColumnName.normalize e.1 = column ∧ .string e.2 = v := by
  refine ⟨keyColumns (SortedMap.ofList (pairs.map fun e => (e.1, Json.string e.2))).entries, ?_,
    fun column v => ⟨fun there => ?_, ?_⟩⟩
  · rw [readKey_toUTF8 (inBraces_ne_empty _), bracedKey_inBraces h.body_ne_empty, h.mapM_pair]
    rfl
  · obtain ⟨name, mem, -, rfl⟩ := mem_of_get?_keyColumns there
    obtain ⟨e, known, rfl, rfl⟩ := h.mem_entries.1 mem
    exact ⟨e, known, rfl, rfl⟩
  · rintro ⟨e, known, rfl, rfl⟩
    refine get?_keyColumns (h.mem_entries.2 ⟨e, known, rfl, rfl⟩) (h.columns e known) ?_
    intro name u mem _ same
    obtain ⟨e', known', rfl, rfl⟩ := h.mem_entries.1 mem
    rw [h.eq_of_normalize known' known same]

end AreSayable

/-- A key between braces is read if and only if it is the text of a body whose parts all have an
equals sign.  Names with values are read back from the key that is written of them, each name as
that of a column. -/
theorem readKey_string_exact :
    (∀ bytes, (∃ columns, readKey .string bytes = .ok columns) ↔
      ∃ body, bytes = (inBraces body).toUTF8 ∧ IsBody body) ∧
    ∀ pairs, AreSayable pairs →
      ∃ columns, readKey .string (inBraces (bodyText pairs)).toUTF8 = .ok columns ∧
        ∀ column v, columns.get? column = some v ↔
          ∃ e ∈ pairs, ColumnName.normalize e.1 = column ∧ .string e.2 = v :=
  ⟨fun _ => readKey_string_iff, fun _ sayable => sayable.readKey⟩

/-- Two pairs with all signs that a value may have. -/
def sampleTenant : List (String × String) := [("id", ""), ("Tenant Id", "a=\x7bb\x7d\x7d")]

theorem areSayable_sampleTenant : AreSayable sampleTenant where
  nonempty := by decide
  names := by decide
  plain := by decide
  values := by decide
  distinct := by decide +kernel
  columns := by decide

theorem readKey_string_exact_sampleTenant :
    AreSayable sampleTenant ∧
      ∃ columns, readKey .string (inBraces "id=,Tenant Id=a=\x7bb\x7d\x7d").toUTF8 = .ok columns ∧
        columns.get? "tenant__id" = some (.string "a=\x7bb\x7d\x7d") := by
  have text : bodyText sampleTenant = "id=,Tenant Id=a=\x7bb\x7d\x7d" := by decide
  have column : ColumnName.normalize "Tenant Id" = "tenant__id" := by decide +kernel
  obtain ⟨columns, read, look⟩ := readKey_string_exact.2 sampleTenant areSayable_sampleTenant
  rw [text] at read
  exact ⟨areSayable_sampleTenant, columns, read,
    (look _ _).2 ⟨("Tenant Id", _), by decide, column, rfl⟩⟩

end ChangeCapture.Debezium

import ChangeCapture.Proofs.SortedMap
import ChangeCapture.RowEvent.Basic

/-!
# Row keys

A row key is the concatenation of its parts, and nothing marks where a part
ends.  So a key tells rows apart in two cases: if there is one primary key, or
if no value but the last one has the character that stands after a name
(`RowEvent.rowKey_identifies_iff`).  With two primary keys or more there are
always two rows of one key.
-/

namespace ChangeCapture

/-- The text that a column has in a key. -/
def Row.keyText? (r : Row) (name : String) : Option String := (r.get? name).map Json.keyText

namespace RowEvent

/-! ## Parts -/

theorem keyOf_cons_ok {table : String} {data : Row} {name : String} {rest : List String}
    {key : String} :
    keyOf table data (name :: rest) = .ok key ↔
      ∃ text tail, data.keyText? name = some text ∧ keyOf table data rest = .ok tail ∧
        key.toList = name.toList ++ '=' :: (text.toList ++ tail.toList) := by
  conv => lhs; unfold keyOf
  simp only [Row.keyText?]
  cases data.get? name with
  | none => simp
  | some value =>
    cases keyOf table data rest with
    | error f => simp [bind, Except.bind]
    | ok tail =>
      constructor
      · intro h
        refine ⟨value.keyText, tail, rfl, rfl, ?_⟩
        rw [← Except.ok.inj h]
        simp [keyPart]
      · rintro ⟨text, tail', htext, htail, hk⟩
        obtain rfl := Option.some.inj htext
        obtain rfl := Except.ok.inj htail
        refine congrArg Except.ok ?_
        rw [← String.toList_inj, hk]
        simp [keyPart]

/-- The key of a row is about the texts of its primary keys only. -/
theorem keyOf_congr {table table' : String} {data data' : Row} {names : List String}
    (h : ∀ name ∈ names, data.keyText? name = data'.keyText? name) {key : String}
    (hkey : keyOf table data names = .ok key) : keyOf table' data' names = .ok key := by
  induction names generalizing key with
  | nil => exact hkey
  | cons name rest ih =>
    obtain ⟨text, tail, htext, htail, hk⟩ := keyOf_cons_ok.1 hkey
    refine keyOf_cons_ok.2 ⟨text, tail, ?_, ?_, hk⟩
    · rw [← h name List.mem_cons_self, htext]
    · exact ih (fun name mem => h name (List.mem_cons_of_mem _ mem)) htail

/-! ## Keys of rows that differ in one name -/

/-- Longer texts make a key longer. -/
theorem length_key_le {table table' : String} {data data' : Row} {names : List String}
    {key key' : String} (h : keyOf table data names = .ok key)
    (h' : keyOf table' data' names = .ok key')
    (le : ∀ name ∈ names, ∀ text text', data.keyText? name = some text →
      data'.keyText? name = some text' → text.toList.length ≤ text'.toList.length) :
    key.toList.length ≤ key'.toList.length := by
  induction names generalizing key key' with
  | nil =>
    obtain rfl := Except.ok.inj h
    obtain rfl := Except.ok.inj h'
    exact Nat.le_refl _
  | cons name rest ih =>
    obtain ⟨text, tail, htext, htail, hk⟩ := keyOf_cons_ok.1 h
    obtain ⟨text', tail', htext', htail', hk'⟩ := keyOf_cons_ok.1 h'
    have first := le name List.mem_cons_self text text' htext htext'
    have others := ih htail htail' fun name mem => le name (List.mem_cons_of_mem _ mem)
    rw [hk, hk']
    simp only [List.length_append, List.length_cons]
    omega

/-- The texts of the first name are the same if the keys are, the texts of the other names are, and
the text of the first row is the shorter one. -/
theorem first_text_eq {table table' : String} {data data' : Row} {name : String}
    {rest : List String} {key text text' : String}
    (h : keyOf table data (name :: rest) = .ok key)
    (h' : keyOf table' data' (name :: rest) = .ok key)
    (others : ∀ n ∈ rest, n ≠ name → data.keyText? n = data'.keyText? n)
    (htext : data.keyText? name = some text) (htext' : data'.keyText? name = some text')
    (le : text.toList.length ≤ text'.toList.length) : text = text' := by
  obtain ⟨_, tail, first, htail, hk⟩ := keyOf_cons_ok.1 h
  obtain ⟨_, tail', first', htail', hk'⟩ := keyOf_cons_ok.1 h'
  obtain rfl := Option.some.inj (htext.symm.trans first)
  obtain rfl := Option.some.inj (htext'.symm.trans first')
  have same : text.toList ++ tail.toList = text'.toList ++ tail'.toList := by
    rw [hk] at hk'
    simpa using hk'
  have tails : tail.toList.length ≤ tail'.toList.length := by
    refine length_key_le htail htail' fun n mem t t' ht ht' => ?_
    by_cases again : n = name
    · subst again
      obtain rfl := Option.some.inj (htext.symm.trans ht)
      obtain rfl := Option.some.inj (htext'.symm.trans ht')
      exact le
    · rw [others n mem again] at ht
      obtain rfl := Option.some.inj (ht.symm.trans ht')
      exact Nat.le_refl _
  have total := congrArg List.length same
  rw [List.length_append, List.length_append] at total
  rw [← String.toList_inj]
  exact (List.append_inj same (by omega)).1

/-- Rows of one key that have the same texts for all names but one have the same text for this one,
even if it stands more than once. -/
theorem text_eq_of_others {table table' : String} {data data' : Row} {names : List String}
    {key name : String} (h : keyOf table data names = .ok key)
    (h' : keyOf table' data' names = .ok key)
    (others : ∀ n ∈ names, n ≠ name → data.keyText? n = data'.keyText? n) (mem : name ∈ names) :
    data.keyText? name = data'.keyText? name := by
  induction names generalizing key with
  | nil => cases mem
  | cons first rest ih =>
    have rest_others : ∀ n ∈ rest, n ≠ name → data.keyText? n = data'.keyText? n :=
      fun n hn => others n (List.mem_cons_of_mem first hn)
    obtain ⟨text, tail, htext, htail, hk⟩ := keyOf_cons_ok.1 h
    obtain ⟨text', tail', htext', htail', hk'⟩ := keyOf_cons_ok.1 h'
    by_cases here : first = name
    · subst here
      rw [htext, htext']
      rcases Nat.le_total text.toList.length text'.toList.length with le | le
      · rw [first_text_eq h h' rest_others htext htext' le]
      · rw [first_text_eq h' h (fun n hn ne => (rest_others n hn ne).symm) htext' htext le]
    · rw [others first List.mem_cons_self here, htext'] at htext
      obtain rfl := Option.some.inj htext
      have tails : tail = tail' := by
        rw [← String.toList_inj]
        rw [hk] at hk'
        simpa using hk'
      subst tails
      exact ih htail htail' rest_others ((List.mem_cons.1 mem).resolve_left (Ne.symm here))

/-! ## Keys that tell rows apart -/

/-- What stands before the first equals sign does not depend on what follows it. -/
theorem takeWhile_to_equals (cs rest : List Char) :
    (cs ++ '=' :: rest).takeWhile (· != '=') = (cs ++ ['=']).takeWhile (· != '=') := by
  induction cs with
  | nil => simp
  | cons c cs ih =>
    simp only [List.cons_append, List.takeWhile_cons]
    rw [ih]

/-- A text without equals signs ends where the name after it begins. -/
theorem text_eq_of_plain {text text' name rest rest' : List Char} (plain : '=' ∉ text)
    (plain' : '=' ∉ text')
    (h : text ++ (name ++ '=' :: rest) = text' ++ (name ++ '=' :: rest')) : text = text' := by
  have before : ∀ {t : List Char} (r : List Char), '=' ∉ t →
      (t ++ (name ++ '=' :: r)).takeWhile (· != '=') =
        t ++ (name ++ ['=']).takeWhile (· != '=') := by
    intro t r plain
    rw [List.takeWhile_append_of_pos, takeWhile_to_equals]
    intro c mem
    simp only [bne_iff_ne]
    rintro rfl
    exact plain mem
  have heads := before rest plain
  rw [h, before rest' plain'] at heads
  exact (List.append_cancel_right heads).symm

/-- No value but the last one has an equals sign. -/
def HasPlainKey (data : Row) (names : List String) : Prop :=
  ∀ name ∈ names.dropLast, ∀ text, data.keyText? name = some text → '=' ∉ text.toList

/-- Texts without an equals sign, the last one aside, are read back from a key: each is all that is
left, or it ends before the next name. -/
theorem texts_eq_of_plain {table table' : String} {data data' : Row} {names : List String}
    {key : String} (h : keyOf table data names = .ok key)
    (h' : keyOf table' data' names = .ok key) (plain : HasPlainKey data names)
    (plain' : HasPlainKey data' names) :
    ∀ name ∈ names, data.keyText? name = data'.keyText? name := by
  induction names generalizing key with
  | nil =>
    intro name mem
    cases mem
  | cons name rest ih =>
    obtain ⟨text, tail, htext, htail, hk⟩ := keyOf_cons_ok.1 h
    obtain ⟨text', tail', htext', htail', hk'⟩ := keyOf_cons_ok.1 h'
    have same : text.toList ++ tail.toList = text'.toList ++ tail'.toList := by
      rw [hk] at hk'
      simpa using hk'
    have first : text = text' := by
      rw [← String.toList_inj]
      cases rest with
      | nil =>
        obtain rfl := Except.ok.inj htail
        obtain rfl := Except.ok.inj htail'
        simpa using same
      | cons next rest =>
        obtain ⟨_, _, -, -, htail⟩ := keyOf_cons_ok.1 htail
        obtain ⟨_, _, -, -, htail'⟩ := keyOf_cons_ok.1 htail'
        rw [htail, htail'] at same
        have mem : name ∈ (name :: next :: rest).dropLast := by simp
        exact text_eq_of_plain (plain name mem text htext) (plain' name mem text' htext') same
    subst first
    have tails : tail = tail' := by
      rw [← String.toList_inj]
      exact List.append_cancel_left same
    subst tails
    have dropLast_mem : ∀ n ∈ rest.dropLast, n ∈ (name :: rest).dropLast := by
      intro n mem
      cases rest with
      | nil => cases mem
      | cons next rest => exact List.mem_cons_of_mem _ mem
    intro n mem
    rcases List.mem_cons.1 mem with rfl | mem
    · rw [htext, htext']
    · exact ih htail htail' (fun n mem => plain n (dropLast_mem n mem))
        (fun n mem => plain' n (dropLast_mem n mem)) n mem

/-! ## Keys that do not -/

/-- A row that has an empty text for every name. -/
def blankRow (names : List String) : Row :=
  names.foldl (fun r name => r.insert name (.string "")) .empty

theorem keyText?_insert (r : Row) (name name' text : String) :
    Row.keyText? (r.insert name (.string text)) name' =
      if name' = name then some text else r.keyText? name' := by
  simp only [Row.keyText?]
  rw [SortedMap.get?_insert]
  split <;> rfl

theorem keyText?_blankRow {names : List String} {name : String} (h : name ∈ names) :
    Row.keyText? (blankRow names) name = some "" := by
  have fold : ∀ (l : List String) (r : Row), name ∈ l ∨ r.keyText? name = some "" →
      Row.keyText? (l.foldl (fun r name => r.insert name (.string "")) r) name = some "" := by
    intro l
    induction l with
    | nil => exact fun r h => h.resolve_left List.not_mem_nil
    | cons first rest ih =>
      intro r h
      refine ih _ ?_
      rw [keyText?_insert]
      by_cases same : name = first
      · exact .inr (if_pos same)
      · rw [if_neg same]
        exact h.imp_left fun mem => (List.mem_cons.1 mem).resolve_left same
  exact fold names .empty (.inl h)

theorem keyOf_isOk {table : String} {data : Row} {names : List String}
    (h : ∀ name ∈ names, ∃ text, data.keyText? name = some text) :
    ∃ key, keyOf table data names = .ok key := by
  induction names with
  | nil => exact ⟨"", rfl⟩
  | cons name rest ih =>
    obtain ⟨text, htext⟩ := h name List.mem_cons_self
    obtain ⟨tail, htail⟩ := ih fun name mem => h name (List.mem_cons_of_mem _ mem)
    exact ⟨_, keyOf_cons_ok.2 ⟨text, tail, htext, htail, String.toList_ofList⟩⟩

theorem keyOf_isOk_iff {table : String} {data : Row} {names : List String} :
    (∃ key, keyOf table data names = .ok key) ↔
      ∀ name ∈ names, ∃ text, data.keyText? name = some text := by
  refine ⟨?_, keyOf_isOk⟩
  rintro ⟨key, hkey⟩
  induction names generalizing key with
  | nil => simp
  | cons name rest ih =>
    obtain ⟨text, tail, htext, htail, -⟩ := keyOf_cons_ok.1 hkey
    exact List.forall_mem_cons.2 ⟨⟨text, htext⟩, ih tail htail⟩

/-- What is moved from the value of the first name to that of the second one leaves the key as it
is. -/
theorem keyOf_moved (table : String) {first second : String} (rest : List String)
    {data data' : Row} (first₁ : data.keyText? first = some (second ++ "="))
    (second₁ : data.keyText? second = some "") (first₂ : data'.keyText? first = some "")
    (second₂ : data'.keyText? second = some (second ++ "="))
    (others : ∀ name ∈ rest, data.keyText? name = some "" ∧ data'.keyText? name = some "") :
    ∃ key, keyOf table data (first :: second :: rest) = .ok key ∧
      keyOf table data' (first :: second :: rest) = .ok key := by
  obtain ⟨tail, htail⟩ : ∃ tail, keyOf table data rest = .ok tail :=
    keyOf_isOk fun name mem => ⟨"", (others name mem).1⟩
  have htail' : keyOf table data' rest = .ok tail :=
    keyOf_congr (fun name mem => (others name mem).1.trans (others name mem).2.symm) htail
  have inner : keyOf table data (second :: rest) =
      .ok (String.ofList (second.toList ++ '=' :: tail.toList)) :=
    keyOf_cons_ok.2 ⟨"", tail, second₁, htail, by simp⟩
  have inner' : keyOf table data' (second :: rest) =
      .ok (String.ofList (second.toList ++ '=' :: ((second ++ "=").toList ++ tail.toList))) :=
    keyOf_cons_ok.2 ⟨second ++ "=", tail, second₂, htail', String.toList_ofList⟩
  refine ⟨String.ofList (first.toList ++ '=' :: ((second ++ "=").toList ++
    (second.toList ++ '=' :: tail.toList))), ?_, ?_⟩
  · exact keyOf_cons_ok.2 ⟨_, _, first₁, inner, by simp⟩
  · exact keyOf_cons_ok.2 ⟨_, _, first₂, inner', by simp⟩

/-- An event with nothing but data and primary keys. -/
def bare (data : Row) (names : List String) : RowEvent where
  table := "orders"
  tableId := ⟨"public", "orders"⟩
  data := data
  hints := none
  columns := none
  isDelete := false
  primaryKeys := names
  time := ⟨0⟩
  mode := .replication

/-- Events with these primary keys that have one row key have the same values of primary keys. -/
def KeyIdentifies (names : List String) (allowed : RowEvent → Prop) : Prop :=
  ∀ e e' : RowEvent, allowed e → allowed e' → e.primaryKeys = names → e'.primaryKeys = names →
    ∀ key, e.rowKey = .ok key → e'.rowKey = .ok key →
      ∀ name ∈ names, e.data.keyText? name = e'.data.keyText? name

theorem not_identifies_of_two {first second : String} {rest : List String}
    (distinct : (first :: second :: rest).Nodup) :
    ¬ KeyIdentifies (first :: second :: rest) fun _ => True := by
  intro identifies
  obtain ⟨notFirst, distinct⟩ := List.nodup_cons.1 distinct
  obtain ⟨notSecond, -⟩ := List.nodup_cons.1 distinct
  have ne : first ≠ second := fun h => notFirst (h ▸ List.mem_cons_self)
  have texts : ∀ name, ∀ name' ∈ first :: second :: rest,
      Row.keyText? ((blankRow (first :: second :: rest)).insert name (.string (second ++ "=")))
        name' = some (if name' = name then second ++ "=" else "") := by
    intro name name' mem
    rw [keyText?_insert, keyText?_blankRow mem]
    split <;> rfl
  have mem₁ : first ∈ first :: second :: rest := List.mem_cons_self
  have mem₂ : second ∈ first :: second :: rest := List.mem_cons_of_mem _ List.mem_cons_self
  obtain ⟨key, left, right⟩ := keyOf_moved "orders" rest
    ((texts first first mem₁).trans (by rw [if_pos rfl]))
    ((texts first second mem₂).trans (by rw [if_neg ne.symm]))
    ((texts second first mem₁).trans (by rw [if_neg ne]))
    ((texts second second mem₂).trans (by rw [if_pos rfl])) (by
      intro name mem
      have mem' := List.mem_cons_of_mem first (List.mem_cons_of_mem second mem)
      have notIs : name ≠ first := by
        rintro rfl
        exact notFirst (List.mem_cons_of_mem _ mem)
      have notIs' : name ≠ second := by
        rintro rfl
        exact notSecond mem
      rw [texts first name mem', texts second name mem', if_neg notIs, if_neg notIs']
      exact ⟨rfl, rfl⟩)
  have same := identifies (bare _ _) (bare _ _) trivial trivial rfl rfl key left right first mem₁
  have clash := (texts first first mem₁).symm.trans (same.trans (texts second first mem₁))
  rw [if_pos rfl, if_neg ne] at clash
  have empty := congrArg String.toList (Option.some.inj clash)
  simp at empty

/-- A list of primary keys tells all rows apart if and only if there is at most one.  If no value
but the last one has an equals sign, any list does. -/
theorem rowKey_identifies_iff {names : List String} (distinct : names.Nodup) :
    (KeyIdentifies names (fun _ => True) ↔ names.length ≤ 1) ∧
      KeyIdentifies names fun e => HasPlainKey e.data names := by
  have plain : KeyIdentifies names fun e => HasPlainKey e.data names := by
    intro e e' allowed allowed' hnames hnames' key hkey hkey'
    unfold rowKey at hkey hkey'
    rw [hnames] at hkey
    rw [hnames'] at hkey'
    exact texts_eq_of_plain hkey hkey' allowed allowed'
  refine ⟨⟨?_, ?_⟩, plain⟩
  · intro identifies
    match names, distinct, identifies with
    | [], _, _ => simp
    | [_], _, _ => simp
    | _ :: _ :: _, distinct, identifies => exact absurd identifies (not_identifies_of_two distinct)
  · intro short e e' _ _
    have none : names.dropLast = [] := by
      match names, short with
      | [], _ => rfl
      | [_], _ => rfl
    have free : ∀ data : Row, HasPlainKey data names := by
      intro data name mem
      rw [none] at mem
      cases mem
    exact plain e e' (free e.data) (free e'.data)

theorem rowKey_identifies_iff_two :
    ["a", "b"].Nodup ∧ (KeyIdentifies ["a", "b"] (fun _ => True) ↔ ["a", "b"].length ≤ 1) ∧
      KeyIdentifies ["a", "b"] fun e => HasPlainKey e.data ["a", "b"] :=
  ⟨by decide, rowKey_identifies_iff (by decide)⟩

/-- An event with two primary keys. -/
def twoKeys (a b : String) : RowEvent :=
  bare (.ofList [(SystemColumn.deleted, .bool false), ("a", .string a), ("b", .string b)])
    ["a", "b"]

/-- Two events of different rows that can both be saved have one row key. -/
theorem rowKey_clash :
    (twoKeys "1b=2" "3").validate = .ok () ∧ (twoKeys "1" "2b=3").validate = .ok () ∧
      (twoKeys "1b=2" "3").rowKey = .ok "a=1b=2b=3" ∧
      (twoKeys "1" "2b=3").rowKey = .ok "a=1b=2b=3" ∧
      (twoKeys "1b=2" "3").data.keyText? "a" ≠ (twoKeys "1" "2b=3").data.keyText? "a" :=
  ⟨rfl, rfl, rfl, rfl, by decide⟩

end RowEvent

end ChangeCapture

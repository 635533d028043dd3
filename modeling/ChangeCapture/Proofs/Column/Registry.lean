import ChangeCapture.Proofs.Column.Name
import ChangeCapture.Proofs.Row

/-!
# What a registry of columns keeps

Adding, marking and upgrading columns, and matching them with the columns that
the destination knows, neither drop a column nor take a kind away
(`ColumnRegistry.Grows`).  So a column stays good for a value once it is
(`ColumnRegistry.Admits`).
-/

namespace ChangeCapture

namespace ColumnRegistry

/-! ## Look-ups -/

theorem name_of_get? {r : ColumnRegistry} {n : String} {c : Column} (h : r.get? n = some c) :
    c.name = n :=
  eq_of_beq (List.find?_some (p := fun c : Column => c.name == n) h)

theorem mem_of_get? {r : ColumnRegistry} {n : String} {c : Column} (h : r.get? n = some c) :
    c ∈ r.columns :=
  List.mem_of_find?_eq_some h

theorem get?_append (cs : List Column) (c : Column) (n : String) :
    (⟨cs ++ [c]⟩ : ColumnRegistry).get? n =
      ((⟨cs⟩ : ColumnRegistry).get? n).or (if c.name = n then some c else none) := by
  simp only [get?]
  rw [List.find?_append]
  congr 1
  by_cases same : c.name = n
  · simp [same]
  · simp [same]

theorem get?_modify (r : ColumnRegistry) (name n : String) {f : Column → Column}
    (names : ∀ c, (f c).name = c.name) :
    (r.modify name f).get? n = if n = name then (r.get? n).map f else r.get? n := by
  obtain ⟨cs⟩ := r
  show List.find? _ (modify.go name f cs) = if n = name then (List.find? _ cs).map f else _
  induction cs with
  | nil => simp [modify.go, get?]
  | cons c rest ih =>
    simp only [modify.go]
    by_cases named : c.name = name
    · subst named
      by_cases same : n = c.name
      · simp [same, names]
      · have other : c.name ≠ n := fun h => same h.symm
        simp [same, other, names, get?]
    · have skip : (c.name == name) = false := by simpa using named
      rw [skip]
      by_cases same : c.name = n
      · have other : n ≠ name := fun h => named (same.trans h)
        simp [same, other, get?]
      · simp only [get?] at ih
        simpa [same, get?] using ih

theorem get?_erase (r : ColumnRegistry) (name n : String) :
    (r.erase name).get? n = if n = name then none else r.get? n := by
  simp only [get?, erase]
  rw [List.find?_filter]
  by_cases same : n = name
  · rw [if_pos same, List.find?_eq_none]
    intro c _
    simp [same]
  · rw [if_neg same]
    congr 1
    funext c
    by_cases named : c.name = n
    · simp [named, same]
    · simp [named]

theorem get?_eraseAll (names : List String) (r : ColumnRegistry) (n : String) :
    (names.foldl erase r).get? n = if n ∈ names then none else r.get? n := by
  induction names generalizing r with
  | nil => rfl
  | cons name rest ih =>
    rw [List.foldl_cons, ih, get?_erase]
    by_cases same : n = name
    · simp [same]
    · simp [same]

/-- A mark leaves the other columns as they are. -/
theorem get?_mark_of_ne {r r' : ColumnRegistry} {name : String} {marks : ColumnMarks}
    (h : r.mark name marks = .ok r') {n : String} (other : n ≠ name) : r'.get? n = r.get? n := by
  unfold mark at h
  split at h
  · cases h
  · split at h
    · obtain rfl := Except.ok.inj h
      have names : ∀ c, (marks.applyTo c).name = c.name := fun _ => rfl
      rw [get?_modify r name n names, if_neg other]
    · obtain rfl := Except.ok.inj h
      have named : (marks.applyTo (.new name .invalid)).name ≠ n := Ne.symm other
      rw [get?_append, if_neg named, Option.or_none]

/-- A mark leaves the kinds as they are. -/
theorem kind_mark {r r' : ColumnRegistry} {name : String} {marks : ColumnMarks}
    (h : r.mark name marks = .ok r') {n : String} {c : Column} (hc : r.get? n = some c) :
    ∃ c', r'.get? n = some c' ∧ c'.kind = c.kind := by
  by_cases same : n = name
  · subst same
    unfold mark at h
    split at h
    · cases h
    · rw [hc, Option.isSome_some, if_pos rfl] at h
      obtain rfl := Except.ok.inj h
      have names : ∀ c, (marks.applyTo c).name = c.name := fun _ => rfl
      refine ⟨marks.applyTo c, ?_, rfl⟩
      rw [get?_modify r n n names, if_pos rfl, hc, Option.map_some]
  · exact ⟨c, (get?_mark_of_ne h same).trans hc, rfl⟩

/-! ## Growth -/

/-- Every column of the first registry is in the second one, with a kind if it has one. -/
def Grows (r r' : ColumnRegistry) : Prop :=
  ∀ n c, r.get? n = some c →
    ∃ c', r'.get? n = some c' ∧ (c.isSkipped = false → c'.isSkipped = false)

theorem Grows.refl (r : ColumnRegistry) : Grows r r :=
  fun _ c h => ⟨c, h, id⟩

theorem Grows.trans {r r' r'' : ColumnRegistry} (h : Grows r r') (h' : Grows r' r'') :
    Grows r r'' := by
  intro n c hc
  obtain ⟨c', hc', kind⟩ := h n c hc
  obtain ⟨c'', hc'', kind'⟩ := h' n c' hc'
  exact ⟨c'', hc'', kind' ∘ kind⟩

theorem grows_append (cs : List Column) (c : Column) : Grows ⟨cs⟩ ⟨cs ++ [c]⟩ := by
  intro n c' h
  refine ⟨c', ?_, id⟩
  rw [get?_append, h, Option.some_or]

theorem grows_add (r : ColumnRegistry) (c : Column) : Grows r (r.add c) := by
  simp only [add]
  split
  · exact .refl r
  · exact grows_append r.columns c

theorem grows_addAll (r : ColumnRegistry) (cs : List Column) : Grows r (r.addAll cs) := by
  induction cs generalizing r with
  | nil => exact .refl r
  | cons c rest ih => exact (grows_add r c).trans (ih (r.add c))

theorem grows_modify (r : ColumnRegistry) (name : String) {f : Column → Column}
    (names : ∀ c, (f c).name = c.name)
    (kinds : ∀ c, r.get? name = some c → c.isSkipped = false → (f c).isSkipped = false) :
    Grows r (r.modify name f) := by
  intro n c h
  rw [get?_modify r name n names]
  by_cases same : n = name
  · subst same
    exact ⟨f c, by simp [h], kinds c h⟩
  · exact ⟨c, by simp [same, h], id⟩

theorem grows_mark {r r' : ColumnRegistry} {name : String} {marks : ColumnMarks}
    (h : r.mark name marks = .ok r') : Grows r r' := by
  unfold mark at h
  split at h
  · cases h
  · split at h
    · obtain rfl := Except.ok.inj h
      exact grows_modify r name (fun _ => rfl) fun _ _ kind => kind
    · obtain rfl := Except.ok.inj h
      exact grows_append r.columns _

theorem grows_upgrade (r : ColumnRegistry) (name : String) (kind : ColumnKind) :
    Grows r (r.upgrade name kind) := by
  simp only [upgrade]
  split
  · rename_i upgrades
    refine grows_modify r name (fun _ => rfl) fun c h kept => ?_
    simp [ColumnRegistry.upgrades, h, kept] at upgrades
  · exact .refl r

/-! ## Columns added -/

theorem mem_add {r : ColumnRegistry} {c c' : Column} (h : c' ∈ (r.add c).columns) :
    c' ∈ r.columns ∨ c' = c := by
  unfold add at h
  split at h
  · exact .inl h
  · simpa using h

theorem mem_addAll {r : ColumnRegistry} {cs : List Column} {c : Column}
    (h : c ∈ (r.addAll cs).columns) : c ∈ r.columns ∨ c ∈ cs := by
  induction cs generalizing r with
  | nil => exact .inl h
  | cons c' rest ih =>
    rcases ih h with h | h
    · rcases mem_add h with h | rfl
      · exact .inl h
      · exact .inr List.mem_cons_self
    · exact .inr (List.mem_cons_of_mem c' h)

/-- A column that is added is found by its name, unless another one was there. -/
theorem get?_add (r : ColumnRegistry) (c : Column) {n : String} (named : n ≠ "") :
    (r.add c).get? n = (r.get? n).or (if c.name = n then some c else none) := by
  simp only [add]
  by_cases same : c.name = n
  · subst same
    cases h : r.get? c.name with
    | some c' => simp [h]
    | none => simp [named, get?_append, h]
  · rw [if_neg same, Option.or_none]
    split
    · rfl
    · rw [get?_append, if_neg same, Option.or_none]

theorem get?_add_self (r : ColumnRegistry) {c : Column} (named : c.name ≠ "") :
    (r.add c).get? c.name = (r.get? c.name).or (some c) := by
  rw [get?_add r c named, if_pos rfl]

/-- Of columns that are added, the first one of a name is found, unless another one was there. -/
theorem get?_addAll (r : ColumnRegistry) (cs : List Column) {n : String} (named : n ≠ "") :
    (r.addAll cs).get? n = (r.get? n).or (cs.find? (·.name == n)) := by
  induction cs generalizing r with
  | nil => exact Option.or_none.symm
  | cons c rest ih =>
    refine (ih (r.add c)).trans ?_
    rw [get?_add r c named, Option.or_assoc]
    by_cases same : c.name = n
    · simp [same]
    · simp [same]

/-- Columns that are picked by name are found by the names they are picked by. -/
theorem get?_pick (r : ColumnRegistry) (names : List String) {n : String} (named : n ≠ "") :
    (ofList (names.filterMap r.get?)).get? n = if n ∈ names then r.get? n else none := by
  have none : empty.get? n = .none := rfl
  rw [ofList, get?_addAll empty _ named, none, Option.none_or]
  induction names with
  | nil => rfl
  | cons name rest ih =>
    by_cases same : n = name
    · subst same
      cases found : r.get? n with
      | none =>
        rw [found] at ih
        simp [found, ih]
      | some c => simp [found, name_of_get? found]
    · cases found : r.get? name with
      | none => simp [found, ih, same]
      | some c =>
        have other : c.name ≠ n := fun h => same (h.symm.trans (name_of_get? found))
        simp [found, ih, same, other]

theorem get?_add_new {r : ColumnRegistry} {name : String} (kind : ColumnKind) (named : name ≠ "")
    (absent : r.get? name = none) : (r.add (.new name kind)).get? name = some (.new name kind) := by
  have added := get?_add_self r (c := .new name kind) named
  have same : (Column.new name kind).name = name := rfl
  rwa [same, absent, Option.none_or] at added

/-- A column that has a name is there once it was added. -/
theorem get?_addAll_of_mem {r : ColumnRegistry} {cs : List Column} {c : Column} (mem : c ∈ cs)
    (named : c.name ≠ "") : ∃ c', (r.addAll cs).get? c.name = some c' := by
  induction cs generalizing r with
  | nil => cases mem
  | cons first rest ih =>
    rcases List.mem_cons.1 mem with rfl | mem
    · obtain ⟨c', h⟩ : ∃ c', (r.add c).get? c.name = some c' := by
        rw [get?_add_self r named]
        cases r.get? c.name <;> simp
      obtain ⟨c'', h', -⟩ := grows_addAll (r.add c) rest c.name c' h
      exact ⟨c'', h'⟩
    · exact ih mem

/-! ## Columns of the destination -/

/-- A column with what the destination knows about it, if it knows it. -/
def adopted (known : ColumnRegistry) (c : Column) : Column :=
  match known.get? (Unicode.lowercase c.name) with
  | some k => c.adopt k
  | none => c

/-- All columns have a kind. -/
def Typed (r : ColumnRegistry) : Prop := ∀ c ∈ r.columns, c.isSkipped = false

theorem name_adopted (known : ColumnRegistry) (c : Column) : (adopted known c).name = c.name := by
  simp only [adopted]
  split <;> rfl

theorem get?_adopt (r known : ColumnRegistry) (n : String) :
    (r.adopt known).get? n = (r.get? n).map (adopted known) := by
  show List.find? _ (r.columns.map (adopted known)) = _
  rw [List.find?_map]
  simp only [get?]
  congr 2
  funext c
  simp [name_adopted]

theorem isSkipped_adopt {c k : Column} (h : k.isSkipped = false) :
    (c.adopt k).isSkipped = false := by
  simp only [Column.isSkipped, Column.adopt] at *
  cases hc : c.kind <;> cases hk : k.kind <;> simp_all

/-- A column that a typed registry knows has a kind after it was matched. -/
theorem isSkipped_adopted {known : ColumnRegistry} (typed : known.Typed) {c k : Column}
    (h : known.get? (Unicode.lowercase c.name) = some k) :
    (adopted known c).isSkipped = false := by
  simp only [adopted]
  rw [h]
  exact isSkipped_adopt (typed k (mem_of_get? h))

theorem grows_adopt (r : ColumnRegistry) {known : ColumnRegistry} (typed : known.Typed) :
    Grows r (r.adopt known) := by
  intro n c h
  refine ⟨adopted known c, by rw [get?_adopt, h, Option.map_some], fun kind => ?_⟩
  cases hk : known.get? (Unicode.lowercase c.name) with
  | some k => exact isSkipped_adopted typed hk
  | none =>
    simp only [adopted]
    rwa [hk]

theorem typed_writable (r : ColumnRegistry) : ∀ c ∈ r.writable, c.isSkipped = false := by
  intro c mem
  simpa using (List.mem_filter.1 mem).2

/-! ## Columns for values -/

/-- There is a column for the value, with a kind unless the value is blank. -/
def Admits (r : ColumnRegistry) (n : String) (v : Json) : Prop :=
  ∃ c, r.get? n = some c ∧ (v.isBlank = false → c.isSkipped = false)

theorem Admits.mono {r r' : ColumnRegistry} {n : String} {v : Json} (h : r.Admits n v)
    (grows : Grows r r') : r'.Admits n v := by
  obtain ⟨c, hc, kind⟩ := h
  obtain ⟨c', hc', kind'⟩ := grows n c hc
  exact ⟨c', hc', kind' ∘ kind⟩

end ColumnRegistry

end ChangeCapture

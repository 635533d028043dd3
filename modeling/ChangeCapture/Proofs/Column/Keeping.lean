import ChangeCapture.Proofs.Column.Knowledge
import Mathlib.Data.List.Infix

/-!
# What a registry of columns never gives up

In a registry that is built by its operations no name is empty, and none stands
twice (`ColumnRegistry.WellFormed`).  An operation adds columns behind those that
are there, and leaves alone what was told before: the mark of a value that the
source left out, and a kind (`ColumnRegistry.Keeps`).  Only where columns are
matched with those of the destination a kind may be taken over.
-/

namespace ChangeCapture

namespace ColumnRegistry

/-- No name is empty, and none stands twice. -/
structure WellFormed (r : ColumnRegistry) : Prop where
  /-- No name is empty. -/
  named : ∀ c ∈ r.columns, c.name ≠ ""
  /-- The names are distinct. -/
  distinct : r.names.Nodup

instance (r : ColumnRegistry) : Decidable r.WellFormed :=
  decidable_of_iff ((∀ c ∈ r.columns, c.name ≠ "") ∧ r.names.Nodup)
    ⟨fun h => ⟨h.1, h.2⟩, fun h => ⟨h.named, h.distinct⟩⟩

theorem wellFormed_empty : empty.WellFormed where
  named := by
    intro c mem
    cases mem
  distinct := List.nodup_nil

theorem mem_names_iff {r : ColumnRegistry} {n : String} :
    n ∈ r.names ↔ ∃ c, r.get? n = some c := by
  rw [names, List.mem_map]
  constructor
  · rintro ⟨c, mem, rfl⟩
    exact Option.isSome_iff_exists.1 (List.find?_isSome.2 ⟨c, mem, beq_self_eq_true c.name⟩)
  · rintro ⟨c, hc⟩
    exact ⟨c, mem_of_get? hc, name_of_get? hc⟩

theorem names_modify (r : ColumnRegistry) (name : String) {f : Column → Column}
    (same : ∀ c, (f c).name = c.name) : (r.modify name f).names = r.names := by
  obtain ⟨cs⟩ := r
  show (modify.go name f cs).map Column.name = cs.map Column.name
  induction cs with
  | nil => rfl
  | cons c rest ih =>
    simp only [modify.go]
    split
    · rw [List.map_cons, List.map_cons, same]
    · rw [List.map_cons, List.map_cons, ih]

theorem wellFormed_of_names {r : ColumnRegistry} (named : "" ∉ r.names) (distinct : r.names.Nodup) :
    r.WellFormed where
  named := by
    rintro c mem none
    exact named (List.mem_map.2 ⟨c, mem, none⟩)
  distinct := distinct

theorem WellFormed.not_mem_empty {r : ColumnRegistry} (h : r.WellFormed) : "" ∉ r.names := by
  intro mem
  obtain ⟨c, mem, none⟩ := List.mem_map.1 mem
  exact h.named c mem none

theorem WellFormed.congr {r r' : ColumnRegistry} (h : r.WellFormed) (same : r'.names = r.names) :
    r'.WellFormed :=
  wellFormed_of_names (same ▸ h.not_mem_empty) (same ▸ h.distinct)

/-! ## Keeping -/

/-- The second registry has the columns of the first one in front, with the marks and the kinds
that were set.  A column may take a kind over if `takes` says so. -/
structure Keeps (takes : String → ColumnKind → Prop) (r r' : ColumnRegistry) : Prop where
  /-- The columns stand in front, in their order. -/
  names : r.names <+: r'.names
  /-- The marks are kept. -/
  toasted : ∀ n, r.Toasted n → r'.Toasted n
  /-- A kind that was set is kept, or another one is taken over. -/
  kinds : ∀ n c, r.get? n = some c → c.isSkipped = false →
    ∃ c', r'.get? n = some c' ∧ c'.isSkipped = false ∧ (c'.kind = c.kind ∨ takes n c'.kind)
  /-- Names stay distinct, and none becomes empty. -/
  wellFormed : r.WellFormed → r'.WellFormed

variable {K : String → ColumnKind → Prop} {r r' r'' : ColumnRegistry}

theorem Keeps.refl (r : ColumnRegistry) : Keeps K r r :=
  ⟨List.prefix_refl _, fun _ => id, fun _ c hc typed => ⟨c, hc, typed, .inl rfl⟩, id⟩

theorem Keeps.trans (h : Keeps K r r') (h' : Keeps K r' r'') : Keeps K r r'' := by
  refine ⟨h.names.trans h'.names, fun n => h'.toasted n ∘ h.toasted n, ?_,
    h'.wellFormed ∘ h.wellFormed⟩
  intro n c hc typed
  obtain ⟨c', hc', typed', kind⟩ := h.kinds n c hc typed
  obtain ⟨c'', hc'', typed'', kind'⟩ := h'.kinds n c' hc' typed'
  refine ⟨c'', hc'', typed'', ?_⟩
  rcases kind' with same | taken
  · rwa [same]
  · exact .inr taken

theorem Keeps.mono {L : String → ColumnKind → Prop} (h : Keeps K r r')
    (more : ∀ n kind, K n kind → L n kind) : Keeps L r r' := by
  refine ⟨h.names, h.toasted, ?_, h.wellFormed⟩
  intro n c hc typed
  obtain ⟨c', hc', typed', kind⟩ := h.kinds n c hc typed
  exact ⟨c', hc', typed', kind.imp_right (more n _)⟩

/-- A column that is there stays there. -/
theorem Keeps.lists (h : Keeps K r r') {n : String} (there : ∃ c, r.get? n = some c) :
    ∃ c, r'.get? n = some c :=
  mem_names_iff.1 (h.names.subset (mem_names_iff.2 there))

/-! ## Columns that are added -/

theorem names_append (cs : List Column) (c : Column) :
    (⟨cs ++ [c]⟩ : ColumnRegistry).names = (⟨cs⟩ : ColumnRegistry).names ++ [c.name] :=
  List.map_append

theorem keeps_append {cs : List Column} {c : Column} (named : c.name ≠ "")
    (fresh : (⟨cs⟩ : ColumnRegistry).get? c.name = none) : Keeps K ⟨cs⟩ ⟨cs ++ [c]⟩ := by
  have kept : ∀ n c', (⟨cs⟩ : ColumnRegistry).get? n = some c' →
      (⟨cs ++ [c]⟩ : ColumnRegistry).get? n = some c' := by
    intro n c' hc
    rw [get?_append, hc, Option.some_or]
  refine ⟨?_, ?_, ?_, ?_⟩
  · rw [names_append]
    exact List.prefix_append _ _
  · rintro n ⟨c', hc, toasted⟩
    exact ⟨c', kept n c' hc, toasted⟩
  · intro n c' hc typed
    exact ⟨c', kept n c' hc, typed, .inl rfl⟩
  · intro before
    have absent : c.name ∉ (⟨cs⟩ : ColumnRegistry).names := by
      rw [mem_names_iff, fresh]
      rintro ⟨c', h⟩
      cases h
    refine wellFormed_of_names ?_ ?_
    · rw [names_append, List.mem_append, List.mem_singleton]
      exact not_or.2 ⟨before.not_mem_empty, Ne.symm named⟩
    · rw [names_append, ← List.concat_eq_append]
      exact before.distinct.concat absent

theorem keeps_add (r : ColumnRegistry) (c : Column) : Keeps K r (r.add c) := by
  unfold add
  split
  · exact .refl r
  · rename_i new
    simp only [Bool.or_eq_true, not_or, String.isEmpty_iff, Option.not_isSome_iff_eq_none] at new
    exact keeps_append new.1 new.2

theorem keeps_addAll (r : ColumnRegistry) (cs : List Column) : Keeps K r (r.addAll cs) := by
  induction cs generalizing r with
  | nil => exact .refl r
  | cons c rest ih => exact (keeps_add r c).trans (ih (r.add c))

theorem wellFormed_ofList (cs : List Column) : (ofList cs).WellFormed :=
  (keeps_addAll (K := fun _ _ => False) empty cs).wellFormed wellFormed_empty

theorem prefix_add (r : ColumnRegistry) (c : Column) : r.columns <+: (r.add c).columns := by
  unfold add
  split
  · exact List.prefix_refl _
  · exact List.prefix_append _ _

theorem prefix_addAll (r : ColumnRegistry) (cs : List Column) :
    r.columns <+: (r.addAll cs).columns := by
  induction cs generalizing r with
  | nil => exact List.prefix_refl _
  | cons c rest ih => exact (prefix_add r c).trans (ih (r.add c))

/-! ## Columns that change -/

theorem keeps_modify (r : ColumnRegistry) (name : String) {f : Column → Column}
    (names : ∀ c, (f c).name = c.name) (toasted : ∀ c, c.toasted → (f c).toasted)
    (kinds : ∀ c, r.get? name = some c → c.isSkipped = false → (f c).kind = c.kind) :
    Keeps K r (r.modify name f) := by
  refine ⟨?_, ?_, ?_, ?_⟩
  · rw [names_modify r name names]
  · rintro n ⟨c, hc, marked⟩
    rw [Toasted, get?_modify r name n names, hc]
    split
    · exact ⟨f c, rfl, toasted c marked⟩
    · exact ⟨c, rfl, marked⟩
  · intro n c hc typed
    rw [get?_modify r name n names, hc]
    split
    · rename_i same
      have kind := kinds c (same ▸ hc) typed
      refine ⟨f c, rfl, ?_, .inl kind⟩
      rwa [Column.isSkipped, kind]
    · exact ⟨c, rfl, typed, .inl rfl⟩
  · exact fun before => before.congr (names_modify r name names)

theorem keeps_upgrade (r : ColumnRegistry) (name : String) (kind : ColumnKind) :
    Keeps K r (r.upgrade name kind) := by
  unfold upgrade
  split
  · rename_i upgrades
    refine keeps_modify r name (fun _ => rfl) (fun _ marked => marked) fun c hc typed => ?_
    simp [ColumnRegistry.upgrades, hc, typed] at upgrades
  · exact .refl r

theorem keeps_mark {name : String} {marks : ColumnMarks} (marked : marks.toasted.getD true)
    (h : r.mark name marks = .ok r') : Keeps K r r' := by
  unfold mark at h
  split at h
  · cases h
  · rename_i named
    split at h
    · obtain rfl := Except.ok.inj h
      refine keeps_modify r name (fun _ => rfl) (fun c toasted => ?_) fun _ _ _ => rfl
      unfold ColumnMarks.applyTo
      cases hm : marks.toasted with
      | none => exact toasted
      | some b => rwa [hm] at marked
    · rename_i fresh
      obtain rfl := Except.ok.inj h
      rw [String.isEmpty_iff] at named
      exact keeps_append named (Option.not_isSome_iff_eq_none.1 fresh)

theorem toasted_mark {name : String} (h : r.mark name .asToasted = .ok r') : r'.Toasted name := by
  unfold mark at h
  split at h
  · cases h
  · cases hc : r.get? name with
    | some c =>
      simp only [hc, Option.isSome_some, if_true] at h
      obtain rfl := Except.ok.inj h
      refine ⟨ColumnMarks.asToasted.applyTo c, ?_, rfl⟩
      rw [get?_modify, if_pos rfl, hc, Option.map_some]
      exact fun _ => rfl
    | none =>
      simp only [hc, Option.isSome_none, Bool.false_eq_true, if_false] at h
      obtain rfl := Except.ok.inj h
      refine ⟨ColumnMarks.asToasted.applyTo (.new name .invalid), ?_, rfl⟩
      rw [get?_append, hc, Option.none_or]
      exact if_pos rfl

/-! ## Columns that are dropped -/

theorem WellFormed.erase (h : r.WellFormed) (name : String) : (r.erase name).WellFormed where
  named := fun c mem => h.named c (List.mem_filter.1 mem).1
  distinct := h.distinct.sublist (List.filter_sublist.map Column.name)

theorem WellFormed.eraseAll (h : r.WellFormed) (names : List String) :
    (names.foldl ColumnRegistry.erase r).WellFormed := by
  induction names generalizing r with
  | nil => exact h
  | cons n rest ih => exact ih (h.erase n)

/-! ## Columns of the destination -/

/-- The kind that a registry has for a column, by lower-case name. -/
def Offers (known : ColumnRegistry) (n : String) (kind : ColumnKind) : Prop :=
  ∃ c, known.get? (Unicode.lowercase n) = some c ∧ c.kind = kind

theorem names_adopt (r known : ColumnRegistry) : (r.adopt known).names = r.names := by
  show (r.columns.map (adopted known)).map Column.name = r.columns.map Column.name
  rw [List.map_map]
  exact List.map_congr_left fun c _ => name_adopted known c

theorem kind_adopt_cases (c known : Column) :
    (c.adopt known).kind = c.kind ∨ (c.adopt known).kind = known.kind := by
  unfold Column.adopt
  simp only
  split <;> simp

theorem keeps_adopt (r : ColumnRegistry) {known : ColumnRegistry} (typed : known.Typed) :
    Keeps known.Offers r (r.adopt known) := by
  refine ⟨?_, ?_, ?_, ?_⟩
  · rw [names_adopt]
  · rintro n ⟨c, hc, marked⟩
    rw [Toasted, get?_adopt, hc]
    refine ⟨adopted known c, rfl, ?_⟩
    unfold adopted
    split <;> exact marked
  · intro n c hc kept
    rw [get?_adopt, hc]
    refine ⟨adopted known c, rfl, ?_⟩
    have name := name_of_get? hc
    unfold adopted
    rw [name]
    cases hk : known.get? (Unicode.lowercase n) with
    | none => exact ⟨kept, .inl rfl⟩
    | some k =>
      refine ⟨isSkipped_adopt (typed k (mem_of_get? hk)), ?_⟩
      exact (kind_adopt_cases c k).imp_right fun same => ⟨k, hk, same.symm⟩
  · exact fun before => before.congr (names_adopt r known)

end ColumnRegistry

end ChangeCapture

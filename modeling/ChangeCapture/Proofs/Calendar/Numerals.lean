import ChangeCapture.Calendar.Instant
import ChangeCapture.Calendar.Reading
import Mathlib.Algebra.Ring.Nat
import Mathlib.Data.List.Basic
import Mathlib.Data.List.TakeDrop

/-!
# Written numbers

A number is written in decimal with zeros in front up to a width (`Calendar.padded`).  Its
text holds digits only and its value is the number (`Calendar.valueOf_padded`).  A reader
that takes as many digits as there are leaves what follows them (`Calendar.number_append`,
`Calendar.anyNumber_append`).
-/

namespace ChangeCapture.Calendar

/-- A text holds digits only. -/
def AllDigits (ds : List Char) : Prop := ∀ c ∈ ds, c.isDigit

/-- A text does not go on with a digit. -/
def NoDigitNext (cs : List Char) : Prop := ∀ c ∈ cs.head?, c.isDigit = false

theorem noDigitNext_nil : NoDigitNext [] := by simp [NoDigitNext]

theorem noDigitNext_cons {c : Char} (h : c.isDigit = false) (cs : List Char) :
    NoDigitNext (c :: cs) := by simpa [NoDigitNext] using h

namespace AllDigits

variable {ds es : List Char}

theorem append (h : AllDigits ds) (k : AllDigits es) : AllDigits (ds ++ es) := by
  intro c hc
  rcases List.mem_append.1 hc with hc | hc
  · exact h c hc
  · exact k c hc

theorem tail {c : Char} (h : AllDigits (c :: ds)) : AllDigits ds :=
  fun d hd => h d (List.mem_cons_of_mem _ hd)

/-- A text that starts with a digit does not start with another character. -/
theorem append_ne_cons (h : AllDigits ds) (there : ds ≠ []) {c : Char} (other : c.isDigit = false)
    (rest cs : List Char) : ds ++ rest ≠ c :: cs := by
  intro same
  cases ds with
  | nil => exact there rfl
  | cons d ds =>
    have digit := h d (List.mem_cons_self ..)
    rw [(List.cons.inj same).1, other] at digit
    cases digit

end AllDigits

/-! ## Values -/

theorem valueOf_append (ds es : List Char) :
    valueOf (ds ++ es) = 10 ^ es.length * valueOf ds + valueOf es := by
  show Nat.ofDigitChars 10 (ds ++ es) 0 = _
  rw [Nat.ofDigitChars_append, Nat.ofDigitChars_eq_ofDigitChars_zero]
  rfl

theorem valueOf_toDigits (n : Nat) : valueOf (Nat.toDigits 10 n) = n :=
  Nat.ofDigitChars_ten_toDigits

theorem valueOf_zeros (k : Nat) : valueOf (List.replicate k '0') = 0 := by
  show Nat.ofDigitChars 10 _ 0 = 0
  rw [Nat.ofDigitChars_replicate_zero, Nat.mul_zero]

/-- The value of a written number. -/
theorem valueOf_padded (width n : Nat) : valueOf (padded width n) = n := by
  rw [padded, valueOf_append, valueOf_zeros, valueOf_toDigits, Nat.mul_zero, Nat.zero_add]

/-! ## Widths -/

theorem allDigits_toDigits (n : Nat) : AllDigits (Nat.toDigits 10 n) :=
  fun _ => Nat.isDigit_of_mem_toDigits (by decide) (by decide)

theorem allDigits_padded (width n : Nat) : AllDigits (padded width n) := by
  refine AllDigits.append (fun c hc => ?_) (allDigits_toDigits n)
  rw [List.eq_of_mem_replicate hc]
  rfl

theorem length_padded (width n : Nat) :
    (padded width n).length = max width (Nat.toDigits 10 n).length := by
  rw [padded, List.length_append, List.length_replicate]
  omega

/-- No zero is put in front of digits that are enough. -/
theorem padded_of_le {width n : Nat} (h : width ≤ (Nat.toDigits 10 n).length) :
    padded width n = Nat.toDigits 10 n := by
  rw [padded, Nat.sub_eq_zero_of_le h, List.replicate_zero, List.nil_append]

/-- A zero is put in front of digits that are too few. -/
theorem padded_succ {width n : Nat} (h : (Nat.toDigits 10 n).length ≤ width) :
    padded (width + 1) n = '0' :: padded width n := by
  rw [padded, Nat.succ_sub h, List.replicate_succ]
  rfl

/-- A number that fits its width is written in it. -/
theorem length_padded_of_lt {width n : Nat} (wide : 0 < width) (h : n < 10 ^ width) :
    (padded width n).length = width := by
  have fits := (Nat.length_toDigits_le_iff (by decide) wide).2 h
  rw [length_padded]
  omega

theorem padded_ne_nil (width n : Nat) : padded width n ≠ [] :=
  List.append_ne_nil_of_right_ne_nil _ Nat.toDigits_ne_nil

/-- Only zero is written with a zero in front. -/
theorem head?_toDigits_ne_zero {n : Nat} (h : n ≠ 0) : (Nat.toDigits 10 n).head? ≠ some '0' := by
  induction n using Nat.strongRecOn with
  | _ n ih =>
    rcases Nat.lt_or_ge n 10 with small | large
    · rw [Nat.toDigits_of_lt_base small]
      simpa using h
    · rw [Nat.toDigits_of_base_le (by decide) large, List.head?_append_of_ne_nil _
        Nat.toDigits_ne_nil]
      exact ih (n / 10) (by omega) (by omega)

/-! ## Readers -/

theorem isBlank_eq_false_of_isDigit {c : Char} (h : c.isDigit) : Unicode.isBlank c = false := by
  have bounds : 48 ≤ c.toNat ∧ c.toNat ≤ 57 := by
    simpa [Char.isDigit, UInt32.le_iff_toNat_le] using h
  simp [Unicode.isBlank, Unicode.inRanges, Unicode.blankRanges]
  omega

/-- There is no white space before a digit. -/
theorem trimStart_append {ds : List Char} (digits : AllDigits ds) (there : ds ≠ [])
    (rest : List Char) : Unicode.trimStart (ds ++ rest) = ds ++ rest := by
  cases ds with
  | nil => exact absurd rfl there
  | cons c ds =>
    have solid := isBlank_eq_false_of_isDigit (digits c (List.mem_cons_self ..))
    simp [Unicode.trimStart, solid]

/-- A reader takes all digits up to its limit, or up to what is no digit. -/
theorem takeDigits_append {ds : List Char} (digits : AllDigits ds) {n : Nat} {rest : List Char}
    (h : ds.length = n ∨ ds.length ≤ n ∧ NoDigitNext rest) :
    takeDigits n (ds ++ rest) = (ds, rest) := by
  induction ds generalizing n with
  | nil =>
    rw [List.nil_append]
    cases n with
    | zero => rfl
    | succ n =>
      obtain h | ⟨-, stop⟩ := h
      · cases h
      · cases rest with
        | nil => rfl
        | cons c cs => simp [takeDigits, stop c rfl]
  | cons c ds ih =>
    cases n with
    | zero => simp at h
    | succ n =>
      have read := @ih digits.tail n (by simpa using h)
      simp [takeDigits, read, digits c (List.mem_cons_self ..)]

theorem number_append {ds : List Char} (digits : AllDigits ds) {least most : Nat}
    {rest : List Char} (h : ds.length = most ∨ ds.length ≤ most ∧ NoDigitNext rest)
    (enough : least ≤ ds.length) :
    number least most (ds ++ rest) = some (valueOf ds, rest) := by
  simp only [number, takeDigits_append digits h, if_neg (Nat.not_lt.2 enough)]

theorem span_append {ds : List Char} (digits : AllDigits ds) {rest : List Char}
    (stop : NoDigitNext rest) : (ds ++ rest).span Char.isDigit = (ds, rest) := by
  rw [List.span_eq_takeWhile_dropWhile, List.takeWhile_append_of_pos digits,
    List.dropWhile_append_of_pos digits]
  cases rest with
  | nil => simp
  | cons c cs => simp [stop c rfl]

/-- There is no number where there is no digit. -/
theorem number_eq_none {least most : Nat} (needed : 0 < least) {cs : List Char}
    (stop : NoDigitNext cs) : number least most cs = none := by
  have nothing : takeDigits most ([] ++ cs) = ([], cs) :=
    takeDigits_append (by simp [AllDigits]) (.inr ⟨Nat.zero_le most, stop⟩)
  rw [List.nil_append] at nothing
  simp only [number, nothing, List.length_nil, if_pos needed]

theorem anyNumber_append {ds : List Char} (digits : AllDigits ds) (there : ds ≠ [])
    {rest : List Char} (stop : NoDigitNext rest) :
    anyNumber (ds ++ rest) = some (valueOf ds, rest) := by
  simp only [anyNumber, span_append digits stop, List.isEmpty_iff, there, if_false]

/-- The digits in front of a text are told apart from what follows them. -/
theorem AllDigits.append_inj {ds es : List Char} (hd : AllDigits ds) (he : AllDigits es)
    {cs cs' : List Char} (stop : NoDigitNext cs) (stop' : NoDigitNext cs')
    (h : ds ++ cs = es ++ cs') : ds = es ∧ cs = cs' := by
  have split := span_append he stop'
  rw [← h, span_append hd stop] at split
  exact Prod.mk.inj split

end ChangeCapture.Calendar

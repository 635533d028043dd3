import ChangeCapture.Debezium.Envelope
import ChangeCapture.Proofs.Calendar.Numerals
import ChangeCapture.Proofs.SortedMap
import ChangeCapture.Proofs.Text.Base64
import Mathlib.Data.Int.ModEq
import Mathlib.Data.Nat.Digits.Lemmas
import Mathlib.Data.Rat.Defs
import Mathlib.Tactic.FieldSimp
import Mathlib.Tactic.Ring

/-!
# Decimal numbers are decoded exactly

The bytes of a decimal number denote an integer in two's complement (`Denotes`), which
counts units of the last place.  What a reader takes from a written number is a
`DecimalNumeral`: a sign, the digits before the point and those after it.  Its text
determines it (`DecimalNumeral.text_injective`), and the numeral of an integer has the
value of that many units (`value_numeral`).

Decoding is exact for every number of places but the greatest that a schema can declare,
65535: the padding is one character wider than the places (`decodesExactly_iff`).
-/

namespace ChangeCapture.Debezium

open Calendar

/-! ## Two's complement -/

/-- The number that bytes are, the most significant first. -/
def bigEndian (bytes : List UInt8) : Nat := Nat.ofDigits 256 (bytes.reverse.map UInt8.toNat)

/-- Bytes denote an integer in two's complement: the one of the range around zero that is congruent
to the number that they are. -/
structure Denotes (bytes : List UInt8) (n : Int) : Prop where
  /-- The integer and the number differ by a multiple of the size of the range. -/
  congruent : (256 : Int) ^ bytes.length ∣ n - bigEndian bytes
  /-- The range has one half below zero. -/
  low : -(256 : Int) ^ bytes.length ≤ 2 * n
  /-- The range has the other half from zero on. -/
  high : 2 * n < (256 : Int) ^ bytes.length

theorem bigEndian_cons (b : UInt8) (bytes : List UInt8) :
    bigEndian (b :: bytes) = b.toNat * 256 ^ bytes.length + bigEndian bytes := by
  simp only [bigEndian, List.reverse_cons, List.map_append, List.map_cons, List.map_nil,
    Nat.ofDigits_append, Nat.ofDigits_singleton, List.length_map, List.length_reverse]
  ring

theorem bigEndian_lt (bytes : List UInt8) : bigEndian bytes < 256 ^ bytes.length := by
  have digits : ∀ d ∈ bytes.reverse.map UInt8.toNat, d < 256 := by
    intro d hd
    obtain ⟨b, -, rfl⟩ := List.mem_map.1 hd
    exact b.toNat_lt
  have below := Nat.ofDigits_lt_base_pow_length (by decide) digits
  rwa [List.length_map, List.length_reverse] at below

/-- The loop over the bytes forms the number that they are. -/
theorem foldl_bytes (bytes : List UInt8) :
    bytes.foldl (fun n b => 256 * n + b.toNat) 0 = bigEndian bytes := by
  rw [bigEndian, Nat.ofDigits_eq_foldr, List.foldr_map, List.foldr_reverse]
  simp only [Nat.cast_id, Nat.add_comm]

theorem signedOfBytes_cons (b : UInt8) (bytes : List UInt8) :
    signedOfBytes (b :: bytes) =
      if 128 ≤ b.toNat then (bigEndian (b :: bytes) : Int) - 256 ^ (bytes.length + 1)
      else bigEndian (b :: bytes) := by
  have size : 1 <<< (8 * (bytes.length + 1)) = 256 ^ (bytes.length + 1) := by
    rw [Nat.one_shiftLeft, Nat.pow_mul]
  simp only [signedOfBytes, foldl_bytes, List.length_cons, size, Nat.cast_pow, Nat.cast_ofNat]

/-- What bytes are decoded to is what they denote. -/
theorem denotes_signedOfBytes (bytes : List UInt8) : Denotes bytes (signedOfBytes bytes) := by
  cases bytes with
  | nil => exact ⟨by decide, by decide, by decide⟩
  | cons b bytes =>
    have below := bigEndian_lt bytes
    have byte := b.toNat_lt
    have place : ((256 ^ bytes.length : Nat) : Int) = 256 ^ bytes.length := by push_cast; rfl
    have size : (256 : Int) ^ (bytes.length + 1) = 256 * (256 ^ bytes.length : Nat) := by
      rw [place]
      ring
    have total := bigEndian_cons b bytes
    rw [signedOfBytes_cons]
    split
    · rename_i negative
      have half := Nat.mul_le_mul_right (256 ^ bytes.length) negative
      have whole := Nat.mul_le_mul_right (256 ^ bytes.length) (Nat.le_of_lt_succ byte)
      refine ⟨⟨-1, ?_⟩, ?_, ?_⟩ <;> rw [List.length_cons, size] <;> omega
    · rename_i nonnegative
      have half := Nat.mul_le_mul_right (256 ^ bytes.length)
        (Nat.le_of_lt_succ (Nat.not_le.1 nonnegative))
      refine ⟨⟨0, ?_⟩, ?_, ?_⟩ <;> rw [List.length_cons, size] <;> omega

/-- Bytes denote one integer. -/
theorem Denotes.unique {bytes : List UInt8} {m n : Int} (hm : Denotes bytes m)
    (hn : Denotes bytes n) : m = n := by
  have multiple := Int.dvd_sub hm.congruent hn.congruent
  rw [sub_sub_sub_cancel_right] at multiple
  have ml := hm.low
  have mh := hm.high
  have nl := hn.low
  have nh := hn.high
  have close : |m - n| < (256 : Int) ^ bytes.length := by
    rw [abs_lt]
    omega
  have same := Int.eq_zero_of_abs_lt_dvd multiple close
  omega

theorem denotes_iff {bytes : List UInt8} {n : Int} : Denotes bytes n ↔ signedOfBytes bytes = n :=
  ⟨fun h => (denotes_signedOfBytes bytes).unique h, fun h => h ▸ denotes_signedOfBytes bytes⟩

/-! ## Numerals -/

/-- A decimal number as it is written. -/
structure DecimalNumeral where
  /-- Whether there is a minus sign. -/
  negative : Bool
  /-- The digits before the point. -/
  whole : List Char
  /-- The digits after the point. -/
  fraction : List Char
  /-- There are digits only before the point. -/
  whole_digits : AllDigits whole
  /-- There are digits only after the point. -/
  fraction_digits : AllDigits fraction
  /-- The first digit is no zero, unless it is the only one before the point. -/
  leading : whole = ['0'] ∨ ∃ c ∈ whole.head?, c ≠ '0'

namespace DecimalNumeral

/-- A point with the digits after it, if there are any. -/
def places (fraction : List Char) : List Char :=
  if fraction = [] then [] else '.' :: fraction

/-- The text. -/
def text (x : DecimalNumeral) : List Char :=
  (if x.negative then ['-'] else []) ++ (x.whole ++ places x.fraction)

/-- The number that is written. -/
def value (x : DecimalNumeral) : ℚ :=
  (if x.negative then -1 else 1) * (valueOf x.whole + valueOf x.fraction / 10 ^ x.fraction.length)

theorem noDigitNext_places (fraction : List Char) : NoDigitNext (places fraction) := by
  rw [places]
  split
  · exact noDigitNext_nil
  · exact noDigitNext_cons rfl _

theorem places_injective : Function.Injective places := by
  intro ds es same
  cases ds <;> cases es <;> simp_all [places]

theorem whole_ne_nil (x : DecimalNumeral) : x.whole ≠ [] := by
  rcases x.leading with zero | ⟨c, first, -⟩
  · rw [zero]
    exact List.cons_ne_nil _ _
  · intro empty
    simp [empty] at first

theorem text_of_negative {x : DecimalNumeral} (h : x.negative = true) :
    x.text = '-' :: (x.whole ++ places x.fraction) := by simp [text, h]

theorem text_of_nonnegative {x : DecimalNumeral} (h : x.negative = false) :
    x.text = x.whole ++ places x.fraction := by simp [text, h]

/-- The text determines what is written. -/
theorem text_injective : Function.Injective text := by
  intro x y same
  have sign : x.negative = y.negative := by
    cases hx : x.negative with
    | false =>
      cases hy : y.negative with
      | false => rfl
      | true =>
        rw [text_of_nonnegative hx, text_of_negative hy] at same
        exact absurd same (x.whole_digits.append_ne_cons x.whole_ne_nil rfl _ _)
    | true =>
      cases hy : y.negative with
      | false =>
        rw [text_of_negative hx, text_of_nonnegative hy] at same
        exact absurd same.symm (y.whole_digits.append_ne_cons y.whole_ne_nil rfl _ _)
      | true => rfl
  have digits : x.whole = y.whole ∧ places x.fraction = places y.fraction := by
    simp only [text, sign, List.append_cancel_left_eq] at same
    exact AllDigits.append_inj x.whole_digits y.whole_digits (noDigitNext_places _)
      (noDigitNext_places _) same
  cases x
  cases y
  simp only [mk.injEq]
  exact ⟨sign, digits.1, places_injective digits.2⟩

end DecimalNumeral

/-! ## The numeral of an integer -/

section Numeral

variable (units : Int) (scale : Nat)

/-- The digits of an integer, padded so that one of them at least stands before the point. -/
def unitDigits : List Char := padded (scale + 1) units.natAbs

theorem scale_lt_length_unitDigits : scale < (unitDigits units scale).length := by
  rw [unitDigits, length_padded]
  omega

theorem allDigits_unitDigits : AllDigits (unitDigits units scale) :=
  allDigits_padded _ _

/-- The digits before the point. -/
def wholeDigits : List Char :=
  (unitDigits units scale).take ((unitDigits units scale).length - scale)

/-- The digits after the point. -/
def placeDigits : List Char :=
  (unitDigits units scale).drop ((unitDigits units scale).length - scale)

theorem wholeDigits_append_placeDigits :
    wholeDigits units scale ++ placeDigits units scale = unitDigits units scale :=
  List.take_append_drop ..

theorem length_placeDigits : (placeDigits units scale).length = scale := by
  have enough := scale_lt_length_unitDigits units scale
  rw [placeDigits, List.length_drop]
  omega

/-- A zero before the point is padding or the integer zero, and stands alone. -/
theorem leading_wholeDigits :
    wholeDigits units scale = ['0'] ∨ ∃ c ∈ (wholeDigits units scale).head?, c ≠ '0' := by
  rcases Nat.lt_or_ge scale (Nat.toDigits 10 units.natAbs).length with long | short
  · have digits : unitDigits units scale = Nat.toDigits 10 units.natAbs := padded_of_le long
    by_cases zero : units.natAbs = 0
    · rw [zero, Nat.toDigits_zero] at digits long
      obtain rfl : scale = 0 := Nat.lt_one_iff.1 long
      left
      rw [wholeDigits, digits]
      rfl
    · right
      rw [wholeDigits, digits, List.head?_take, if_neg (by omega)]
      have nonzero := head?_toDigits_ne_zero zero
      obtain ⟨c, rest, hc⟩ := List.exists_cons_of_ne_nil
        (Nat.toDigits_ne_nil (n := units.natAbs) (b := 10))
      rw [hc, List.head?_cons] at nonzero ⊢
      exact ⟨c, rfl, fun h => nonzero (h ▸ rfl)⟩
  · left
    have digits : unitDigits units scale = '0' :: padded scale units.natAbs := padded_succ short
    have length : (unitDigits units scale).length - scale = 1 := by
      rw [digits, List.length_cons, length_padded]
      omega
    rw [wholeDigits, length, digits]
    rfl

/-- The numeral of so many units of the last of `scale` places. -/
def numeral : DecimalNumeral where
  negative := decide (units < 0)
  whole := wholeDigits units scale
  fraction := placeDigits units scale
  whole_digits c hc := allDigits_unitDigits units scale c (List.mem_of_mem_take hc)
  fraction_digits c hc := allDigits_unitDigits units scale c (List.mem_of_mem_drop hc)
  leading := leading_wholeDigits units scale

theorem text_numeral :
    (numeral units scale).text = (if units < 0 then ['-'] else []) ++
      (wholeDigits units scale ++ DecimalNumeral.places (placeDigits units scale)) := by
  by_cases negative : units < 0
  · rw [if_pos negative]
    exact DecimalNumeral.text_of_negative (decide_eq_true negative)
  · rw [if_neg negative]
    exact DecimalNumeral.text_of_nonnegative (decide_eq_false negative)

/-- What is written is the text of the numeral. -/
theorem decimalText_eq : decimalText units scale = String.ofList (numeral units scale).text := by
  rw [text_numeral]
  by_cases integral : scale = 0
  · subst integral
    have digits : unitDigits units 0 = Nat.toDigits 10 units.natAbs :=
      padded_of_le Nat.length_toDigits_pos
    have empty := List.length_eq_zero_iff.1 (length_placeDigits units 0)
    have all := wholeDigits_append_placeDigits units 0
    rw [empty, List.append_nil, digits] at all
    rw [empty, all]
    simp [decimalText, DecimalNumeral.places]
  · have there : placeDigits units scale ≠ [] := by
      intro empty
      have length := length_placeDigits units scale
      rw [empty] at length
      exact integral length.symm
    rw [decimalText, if_neg integral, DecimalNumeral.places, if_neg there, ← List.append_assoc]
    rfl

/-- The digits, as a number, are that many units without their sign. -/
theorem magnitude_numeral :
    ((valueOf (wholeDigits units scale) : ℚ) +
      valueOf (placeDigits units scale) / 10 ^ (placeDigits units scale).length) * 10 ^ scale =
        units.natAbs := by
  have sum := valueOf_append (wholeDigits units scale) (placeDigits units scale)
  rw [wholeDigits_append_placeDigits, unitDigits, valueOf_padded, length_placeDigits] at sum
  have power : (10 : ℚ) ^ scale ≠ 0 := pow_ne_zero _ (by norm_num)
  rw [sum, length_placeDigits]
  push_cast
  field_simp

/-- The numeral has the value of so many units. -/
theorem value_numeral : (numeral units scale).value * 10 ^ scale = units := by
  rw [DecimalNumeral.value, mul_assoc]
  refine (congrArg _ (magnitude_numeral units scale)).trans ?_
  rw [Nat.cast_natAbs]
  by_cases negative : units < 0
  · have sign : (numeral units scale).negative = true := decide_eq_true negative
    rw [if_pos sign, abs_of_neg negative]
    push_cast
    ring
  · have sign : ¬ (numeral units scale).negative = true := mt of_decide_eq_true negative
    rw [if_neg sign, abs_of_nonneg (Int.not_lt.1 negative), one_mul]

end Numeral

/-! ## Decoding -/

/-- The value of a decimal field: the standard text of bytes. -/
def encoded (bytes : List UInt8) : String := String.ofList (Base64.encode bytes)

theorem units?_encoded (bytes : List UInt8) :
    units? (encoded bytes) =
      if bytes.length ≤ maxDecimalBytes then some (signedOfBytes bytes) else none := by
  simp [units?, encoded, Base64.decode?_encode]

theorem decimal?_encoded {bytes : List UInt8} (short : bytes.length ≤ maxDecimalBytes) {scale : Nat}
    (fits : scale < maxPadding) :
    decimal? scale (encoded bytes) =
      some (String.ofList (numeral (signedOfBytes bytes) scale).text) := by
  simp [decimal?, units?_encoded, short, fits, decimalText_eq]

theorem decimal?_encoded_of_long {bytes : List UInt8} (long : maxDecimalBytes < bytes.length)
    (scale : Nat) : decimal? scale (encoded bytes) = none := by
  simp [decimal?, units?_encoded, Nat.not_le.2 long]

theorem convertRow_append (before after : List Field) (r : Row) :
    convertRow (before ++ after) r = convertRow after (convertRow before r) :=
  List.foldl_append ..

section Rows

variable {f : Field} {before after : List Field} {r : Row} {v : Json}

/-- A value that is not converted leaves the row as it is. -/
theorem convertRow_of_converted? (there : (convertRow before r).get? f.name = some v)
    (refused : converted? f v = none) :
    convertRow (before ++ f :: after) r = convertRow (before ++ after) r := by
  have same : (convertRow before r).modify f.name (convert f) = convertRow before r := by
    simp only [SortedMap.modify, there, convert, refused, Option.getD_none]
    exact SortedMap.insert_of_get? there
  rw [convertRow_append, convertRow_append]
  exact congrArg (convertRow after) same

/-- A value that brings its row down does so behind other fields too. -/
theorem breaksRow_of_breaks (there : (convertRow before r).get? f.name = some v)
    (down : breaks f v) : breaksRow (before ++ f :: after) r := by
  induction before generalizing r with
  | nil =>
    have overlong : isOverlong f := by
      rw [breaks, Bool.and_eq_true] at down
      exact down.1
    have found : r.get? f.name = some v := there
    simp [breaksRow, overlong, found, down]
  | cons g rest ih =>
    rw [List.cons_append, breaksRow, ih there, Bool.or_true]

end Rows

/-- Decimal numbers with so many places are decoded exactly. -/
structure DecodesExactly (scale : Nat) : Prop where
  /-- Bytes that are few enough denote one integer, and what is written for them is a numeral with
  all the places, whose value is that many units of the last place. -/
  writes : ∀ bytes : List UInt8, bytes.length ≤ 16 → ∃ n, Denotes bytes n ∧
    ∃ x : DecimalNumeral, decimal? scale (encoded bytes) = some (String.ofList x.text) ∧
      (x.negative = true ↔ n < 0) ∧ x.fraction.length = scale ∧ x.value * 10 ^ scale = n
  /-- The same is written for bytes if and only if they denote the same integer. -/
  tells : ∀ (bytes bytes' : List UInt8) (m n : Int), bytes.length ≤ 16 → bytes'.length ≤ 16 →
    Denotes bytes m → Denotes bytes' n →
    (decimal? scale (encoded bytes) = decimal? scale (encoded bytes') ↔ m = n)
  /-- More bytes are refused, and leave the row as it is. -/
  refuses : ∀ bytes : List UInt8, 16 < bytes.length → decimal? scale (encoded bytes) = none ∧
    ∀ (f : Field) (before after : List Field) (r : Row), f.logicalType = some .decimal →
      f.scale = scale → (convertRow before r).get? f.name = some (.string (encoded bytes)) →
      convertRow (before ++ f :: after) r = convertRow (before ++ after) r

/-- Decimal numbers with so many places bring the conversion of their rows down. -/
def Fails (scale : Nat) : Prop :=
  ∀ (bytes : List UInt8) (f : Field) (before after : List Field) (r : Row), bytes.length ≤ 16 →
    f.logicalType = some .decimal → f.scale = scale →
    (convertRow before r).get? f.name = some (.string (encoded bytes)) →
    breaksRow (before ++ f :: after) r

theorem decodesExactly {scale : Nat} (fits : scale < maxPadding) : DecodesExactly scale := by
  refine ⟨fun bytes short => ?_, fun bytes bytes' m n short short' hm hn => ?_,
    fun bytes long => ?_⟩
  · exact ⟨_, denotes_signedOfBytes bytes, numeral (signedOfBytes bytes) scale,
      decimal?_encoded short fits, decide_eq_true_iff, length_placeDigits _ _, value_numeral _ _⟩
  · rw [decimal?_encoded short fits, decimal?_encoded short' fits, denotes_iff.1 hm,
      denotes_iff.1 hn]
    constructor
    · intro same
      have texts := String.ofList_injective (Option.some.inj same)
      have numerals := DecimalNumeral.text_injective texts
      have values := value_numeral m scale
      rw [numerals, value_numeral n scale] at values
      exact_mod_cast values.symm
    · exact fun same => same ▸ rfl
  · refine ⟨decimal?_encoded_of_long long scale, fun f before after r type width there => ?_⟩
    refine convertRow_of_converted? there ?_
    simp [converted?, type, width, Json.string?, decimal?_encoded_of_long long]

/-- A number with more places than can be written is not decoded. -/
theorem not_decodesExactly {scale : Nat} (wide : maxPadding ≤ scale) : ¬ DecodesExactly scale := by
  intro exact
  obtain ⟨-, -, x, text, -⟩ := exact.writes [] (by decide)
  simp [decimal?, Nat.not_lt.2 wide] at text

theorem fails {scale : Nat} (wide : maxPadding ≤ scale) : Fails scale := by
  intro bytes f before after r short type same there
  refine breaksRow_of_breaks there ?_
  simp [breaks, isOverlong, type, same, wide, Json.string?, units?_encoded,
    show bytes.length ≤ maxDecimalBytes from short]

/-- Decimal numbers are decoded exactly if and only if they can be padded to one digit more than
they have places.  Otherwise their rows fail. -/
theorem decodesExactly_iff (scale : Nat) :
    (DecodesExactly scale ↔ scale < maxPadding) ∧ (DecodesExactly scale ∨ Fails scale) := by
  rcases Nat.lt_or_ge scale maxPadding with fits | wide
  · exact ⟨iff_of_true (decodesExactly fits) fits, .inl (decodesExactly fits)⟩
  · exact ⟨iff_of_false (not_decodesExactly wide) (Nat.not_lt.2 wide), .inr (fails wide)⟩

/-- A field may declare one place more than can be written.  Then a row with a decimal number, here
of the byte 1, is not converted but fails. -/
theorem row_with_most_places_fails :
    let amount := Field.mk "bytes" "amount" (some .decimal) [("scale", .string "65535")] []
    let payload : Payload := ⟨some (.ofList [("amount", .string (encoded [1]))]), 0, "orders", "c"⟩
    amount.scale = 65535 ∧ Denotes [1] 1 ∧ ¬ DecodesExactly amount.scale ∧
      changeOf (some [.mk "struct" "after" none [] [amount]]) payload = .error overlong := by
  have places : (Field.mk "bytes" "amount" (some .decimal) [("scale", .string "65535")] []).scale =
      65535 := by decide +kernel
  refine ⟨places, denotes_iff.2 (by decide), not_decodesExactly (by rw [places]; decide), ?_⟩
  rfl

end ChangeCapture.Debezium

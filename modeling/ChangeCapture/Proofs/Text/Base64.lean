import ChangeCapture.Text.Base64

/-!
# Base64 texts are read back

Every list of bytes is what its text encodes (`Base64.decode?_encode`).  The induction
follows the encoder, three bytes at a time, so all but the last four characters of a
text are read without padding.
-/

namespace ChangeCapture.Base64

theorem sextet?_sextetChar : ∀ n < 64, sextet? (sextetChar n) = some n := by decide

theorem sextetChar_ne_padding : ∀ n < 64, sextetChar n ≠ '=' := by decide

/-- Four characters are decoded before all others if there is no padding in them. -/
theorem decode?_cons {a b c d : Char} (hc : c ≠ '=') (hd : d ≠ '=') (rest : List Char) :
    decode? (a :: b :: c :: d :: rest) =
      (lastBytes? a b c d).bind fun bytes => (decode? rest).map (bytes ++ ·) := by
  cases rest with
  | nil => simp [decode?]
  | cons e rest =>
    simp only [decode?, hc, hd, or_self, if_false, Option.bind_eq_bind, Option.map_eq_bind]
    rfl

section Groups

variable (x y z : UInt8)

theorem lastBytes?_one :
    lastBytes? (sextetChar (x.toNat / 4)) (sextetChar (x.toNat % 4 * 16)) '=' '=' = some [x] := by
  have hx := x.toNat_lt
  have byte : x.toNat / 4 * 4 + x.toNat % 4 * 16 / 16 = x.toNat := by omega
  have unused : x.toNat % 4 * 16 % 16 = 0 := by omega
  simp only [lastBytes?, Option.bind_eq_bind, sextet?_sextetChar (x.toNat / 4) (by omega),
    sextet?_sextetChar (x.toNat % 4 * 16) (by omega), Option.bind_some, and_self, if_true, byte,
    unused, UInt8.ofNat_toNat]

theorem lastBytes?_two :
    lastBytes? (sextetChar (x.toNat / 4)) (sextetChar (x.toNat % 4 * 16 + y.toNat / 16))
      (sextetChar (y.toNat % 16 * 4)) '=' = some [x, y] := by
  have hx := x.toNat_lt
  have hy := y.toNat_lt
  have plain := sextetChar_ne_padding (y.toNat % 16 * 4) (by omega)
  have first : x.toNat / 4 * 4 + (x.toNat % 4 * 16 + y.toNat / 16) / 16 = x.toNat := by omega
  have second : (x.toNat % 4 * 16 + y.toNat / 16) % 16 * 16 + y.toNat % 16 * 4 / 4 = y.toNat := by
    omega
  have unused : y.toNat % 16 * 4 % 4 = 0 := by omega
  simp only [lastBytes?, Option.bind_eq_bind, sextet?_sextetChar (x.toNat / 4) (by omega),
    sextet?_sextetChar (x.toNat % 4 * 16 + y.toNat / 16) (by omega),
    sextet?_sextetChar (y.toNat % 16 * 4) (by omega), Option.bind_some, plain, false_and, if_false,
    if_true, first, second, unused, UInt8.ofNat_toNat]

theorem lastBytes?_three :
    lastBytes? (sextetChar (x.toNat / 4)) (sextetChar (x.toNat % 4 * 16 + y.toNat / 16))
      (sextetChar (y.toNat % 16 * 4 + z.toNat / 64)) (sextetChar (z.toNat % 64)) =
        some [x, y, z] := by
  have hx := x.toNat_lt
  have hy := y.toNat_lt
  have hz := z.toNat_lt
  have plain := sextetChar_ne_padding (z.toNat % 64) (by omega)
  have first : x.toNat / 4 * 4 + (x.toNat % 4 * 16 + y.toNat / 16) / 16 = x.toNat := by omega
  have second : (x.toNat % 4 * 16 + y.toNat / 16) % 16 * 16 +
      (y.toNat % 16 * 4 + z.toNat / 64) / 4 = y.toNat := by omega
  have third : (y.toNat % 16 * 4 + z.toNat / 64) % 4 * 64 + z.toNat % 64 = z.toNat := by omega
  simp only [lastBytes?, Option.bind_eq_bind, sextet?_sextetChar (x.toNat / 4) (by omega),
    sextet?_sextetChar (x.toNat % 4 * 16 + y.toNat / 16) (by omega),
    sextet?_sextetChar (y.toNat % 16 * 4 + z.toNat / 64) (by omega),
    sextet?_sextetChar (z.toNat % 64) (by omega), Option.bind_some, plain, and_false, if_false,
    first, second, third, UInt8.ofNat_toNat]

end Groups

/-- The text of bytes is decoded to them. -/
theorem decode?_encode (bytes : List UInt8) : decode? (encode bytes) = some bytes := by
  fun_induction encode bytes with
  | case1 => rfl
  | case2 x => exact lastBytes?_one x
  | case3 x y => exact lastBytes?_two x y
  | case4 x y z rest _ _ _ ih =>
    have hy := y.toNat_lt
    have hz := z.toNat_lt
    rw [decode?_cons (sextetChar_ne_padding _ (by omega)) (sextetChar_ne_padding _ (by omega)),
      lastBytes?_three, ih]
    rfl

end ChangeCapture.Base64

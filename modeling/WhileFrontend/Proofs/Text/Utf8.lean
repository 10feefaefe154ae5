import WhileFrontend.Text.Utf8

/-!
# What is encoded is decoded

Decoding gives back every text that was encoded (`decode_encode`). A character is decoded by the
number of its bytes: the start byte promises the continuation bytes that follow (`start?_two`,
`start?_three`, `start?_four`), and each of these brings six more bits (`tail_continuation`). The
intervals for the first of them leave room for every character, because no character lies between
U+D800 and U+DFFF or above U+10FFFF.
-/

namespace WhileFrontend.Text.Utf8

theorem toNat_ofNat {n : Nat} (h : n < 256) : (UInt8.ofNat n).toNat = n := by
  simp [Nat.mod_eq_of_lt h]

/-- A continuation byte that is admitted brings six bits. -/
theorem tail_continuation {m more least greatest fitting n : Nat} {rest : List UInt8}
    (hleast : least ≤ 0x80 + n % 64) (hgreatest : 0x80 + n % 64 ≤ greatest) :
    tail m (more + 1) least greatest fitting (continuation n :: rest)
      = tail (m * 64 + n % 64) more 0x80 0xBF (fitting + 1) rest := by
  have hbyte : (continuation n).toNat = 0x80 + n % 64 := toNat_ofNat (by omega)
  rw [tail, hbyte, if_pos ⟨hleast, hgreatest⟩, Nat.add_sub_cancel_left]

/-! ## Start bytes -/

/-- The code point of a character is no surrogate and not above U+10FFFF. -/
theorem toNat_valid (c : Char) :
    c.toNat < 0xD800 ∨ 0xDFFF < c.toNat ∧ c.toNat < 0x110000 :=
  c.valid

theorem start?_two {n : Nat} (h : 0x80 ≤ n) (h' : n < 0x800) :
    start? (0xC0 + n / 64) = some ⟨n / 64, 1, 0x80, 0xBF⟩ := by
  rw [start?, if_neg (by omega), if_pos (by omega), Nat.add_sub_cancel_left]

/-- Three bytes leave room for all code points up to U+FFFF that are no surrogates. -/
theorem start?_three {n : Nat} (h : 0x800 ≤ n) (h' : n < 0x10000)
    (hvalid : n < 0xD800 ∨ 0xDFFF < n) :
    ∃ least greatest, start? (0xE0 + n / 4096) = some ⟨n / 4096, 2, least, greatest⟩ ∧
      least ≤ 0x80 + n / 64 % 64 ∧ 0x80 + n / 64 % 64 ≤ greatest := by
  rw [start?, if_neg (by omega), if_neg (by omega)]
  split
  · next hfirst =>
    have hbits : n / 4096 = 0 := by omega
    exact ⟨0xA0, 0xBF, by rw [hbits], by omega, by omega⟩
  · split
    · next hsurrogate =>
      have hbits : n / 4096 = 0xD := by omega
      exact ⟨0x80, 0x9F, by rw [hbits], by omega, by omega⟩
    · rw [if_pos (by omega), Nat.add_sub_cancel_left]
      exact ⟨0x80, 0xBF, rfl, by omega, by omega⟩

/-- Four bytes leave room for all code points above that. -/
theorem start?_four {n : Nat} (h : 0x10000 ≤ n) (h' : n < 0x110000) :
    ∃ least greatest, start? (0xF0 + n / 262144) = some ⟨n / 262144, 3, least, greatest⟩ ∧
      least ≤ 0x80 + n / 4096 % 64 ∧ 0x80 + n / 4096 % 64 ≤ greatest := by
  rw [start?, if_neg (by omega), if_neg (by omega), if_neg (by omega), if_neg (by omega),
    if_neg (by omega)]
  split
  · next hfirst =>
    have hbits : n / 262144 = 0 := by omega
    exact ⟨0x90, 0xBF, by rw [hbits], by omega, by omega⟩
  · split
    · rw [Nat.add_sub_cancel_left]
      exact ⟨0x80, 0xBF, rfl, by omega, by omega⟩
    · rw [if_pos (by omega)]
      have hbits : n / 262144 = 4 := by omega
      exact ⟨0x80, 0x8F, by rw [hbits], by omega, by omega⟩

/-! ## Characters and texts -/

theorem decodeFrom_of_start (position : Nat) {b : Nat} {rest : List UInt8} {s : Start}
    (hb : b < 256) (hascii : 0x80 ≤ b) (hstart : start? b = some s) {n used : Nat}
    (htail : tail s.bits s.more s.least s.greatest 0 rest = .value n used) :
    decodeFrom position (.ofNat b :: rest)
      = (decodeFrom (position + used + 1) (rest.drop used)).map (Char.ofNat n :: ·) := by
  rw [decodeFrom, toNat_ofNat hb, if_neg (by omega)]
  simp only [hstart, htail]

/-- The bytes of a character are decoded to it, whatever follows them. -/
theorem decodeFrom_encodeChar (position : Nat) (c : Char) (rest : List UInt8) :
    decodeFrom position (encodeChar c ++ rest)
      = (decodeFrom (position + (encodeChar c).length) rest).map (c :: ·) := by
  have hvalid := toNat_valid c
  have hchar : Char.ofNat c.toNat = c := Char.ofNat_toNat c
  simp only [encodeChar]
  generalize c.toNat = n at hvalid hchar
  split
  · next hone =>
    rw [List.singleton_append, decodeFrom, toNat_ofNat (by omega), if_pos hone, hchar]
    rfl
  · split
    · next htwo =>
      have htail : tail (n / 64) 1 0x80 0xBF 0 (continuation n :: rest) = .value n 1 := by
        rw [tail_continuation (by omega) (by omega), tail, Nat.div_add_mod']
      have hread := decodeFrom_of_start position (by omega) (by omega)
        (start?_two (by omega) htwo) htail
      rwa [hchar] at hread
    · split
      · next hthree =>
        obtain ⟨least, greatest, hstart, hleast, hgreatest⟩ :=
          start?_three (n := n) (by omega) hthree (by omega)
        have hvalue : (n / 4096 * 64 + n / 64 % 64) * 64 + n % 64 = n := by omega
        have htail : tail (n / 4096) 2 least greatest 0
            (continuation (n / 64) :: continuation n :: rest) = .value n 2 := by
          rw [tail_continuation hleast hgreatest, tail_continuation (by omega) (by omega), tail,
            hvalue]
        have hread := decodeFrom_of_start position (by omega) (by omega) hstart htail
        rwa [hchar] at hread
      · obtain ⟨least, greatest, hstart, hleast, hgreatest⟩ :=
          start?_four (n := n) (by omega) (by omega)
        have hvalue : ((n / 262144 * 64 + n / 4096 % 64) * 64 + n / 64 % 64) * 64 + n % 64 = n := by
          omega
        have htail : tail (n / 262144) 3 least greatest 0
            (continuation (n / 4096) :: continuation (n / 64) :: continuation n :: rest)
              = .value n 3 := by
          rw [tail_continuation hleast hgreatest, tail_continuation (by omega) (by omega),
            tail_continuation (by omega) (by omega), tail, hvalue]
        have hread := decodeFrom_of_start position (by omega) (by omega) hstart htail
        rwa [hchar] at hread

theorem decodeFrom_encode (position : Nat) (cs : List Char) :
    decodeFrom position (encode cs) = .ok cs := by
  induction cs generalizing position with
  | nil =>
    rw [encode, List.flatMap_nil, decodeFrom]
  | cons c cs ih =>
    rw [encode, List.flatMap_cons, decodeFrom_encodeChar]
    show (decodeFrom _ (encode cs)).map _ = _
    rw [ih]
    rfl

/-- **Decoding gives back the text that was encoded.** -/
theorem decode_encode (cs : List Char) : decode (encode cs) = .ok cs :=
  decodeFrom_encode 0 cs

end WhileFrontend.Text.Utf8

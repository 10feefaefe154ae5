/-!
# UTF-8

Encoding writes a character in one to four bytes. Decoding is strict: only what encoding writes is
read, so overlong forms, surrogates and values above U+10FFFF are refused. A refusal names the bytes
at fault: the first byte that starts no character; or a start byte with the continuation bytes that
fit it, up to one that does not; or such bytes up to the end, where more would be needed.

## Mechanism

A start byte fixes how many continuation bytes follow and in which interval the first of them lies
(`start?`); all later ones lie in 0x80 to 0xBF. The interval of the first is what rules out the
overlong forms, surrogates and too large values.
-/

namespace WhileFrontend.Text.Utf8

/-- The continuation byte that carries the last six bits of `n`. -/
def continuation (n : Nat) : UInt8 :=
  .ofNat (0x80 + n % 64)

/-- The bytes of a character. -/
def encodeChar (c : Char) : List UInt8 :=
  let n := c.toNat
  if n < 0x80 then [.ofNat n]
  else if n < 0x800 then [.ofNat (0xC0 + n / 64), continuation n]
  else if n < 0x10000 then
    [.ofNat (0xE0 + n / 4096), continuation (n / 64), continuation n]
  else
    [.ofNat (0xF0 + n / 262144), continuation (n / 4096), continuation (n / 64), continuation n]

/-- The bytes of a text. -/
def encode (cs : List Char) : List UInt8 :=
  cs.flatMap encodeChar

/-- What a start byte promises. -/
structure Start where
  /-- The bits that it contributes. -/
  bits : Nat
  /-- The number of continuation bytes. -/
  more : Nat
  /-- The least first continuation byte. -/
  least : Nat
  /-- The greatest first continuation byte. -/
  greatest : Nat
  deriving DecidableEq, Repr

/-- The promise of a byte that starts a character of two bytes or more. -/
def start? (b : Nat) : Option Start :=
  if b < 0xC2 then none
  else if b < 0xE0 then some ⟨b - 0xC0, 1, 0x80, 0xBF⟩
  else if b = 0xE0 then some ⟨0, 2, 0xA0, 0xBF⟩
  else if b = 0xED then some ⟨0xD, 2, 0x80, 0x9F⟩
  else if b < 0xF0 then some ⟨b - 0xE0, 2, 0x80, 0xBF⟩
  else if b = 0xF0 then some ⟨0, 3, 0x90, 0xBF⟩
  else if b < 0xF4 then some ⟨b - 0xF0, 3, 0x80, 0xBF⟩
  else if b = 0xF4 then some ⟨4, 3, 0x80, 0x8F⟩
  else none

/-- What is wrong with the bytes at fault. -/
inductive Reason where
  | invalidStart
  | invalidContinuation
  | unexpectedEnd
  deriving DecidableEq, Repr

/-- Bytes that are not UTF-8: from `position` on, `length` of them, the first being `byte`. -/
structure Fault where
  position : Nat
  length : Nat
  byte : Nat
  reason : Reason
  deriving DecidableEq, Repr

/-- What the continuation bytes come to: the value of the character and the number of bytes used, or
why they do not fit and how many do. -/
inductive Tail where
  | value (n : Nat) (used : Nat)
  | fault (reason : Reason) (fitting : Nat)

/-- Reads `more` continuation bytes, the first between `least` and `greatest`, onto the value `n`
that the bytes before them have. -/
def tail (n : Nat) : (more least greatest fitting : Nat) → List UInt8 → Tail
  | 0, _, _, fitting, _ => .value n fitting
  | _ + 1, _, _, fitting, [] => .fault .unexpectedEnd fitting
  | more + 1, least, greatest, fitting, b :: rest =>
    if least ≤ b.toNat ∧ b.toNat ≤ greatest then
      tail (n * 64 + (b.toNat - 0x80)) more 0x80 0xBF (fitting + 1) rest
    else .fault .invalidContinuation fitting

/-- Decodes bytes that stand at `position` in the whole. -/
def decodeFrom (position : Nat) : List UInt8 → Except Fault (List Char)
  | [] => .ok []
  | b :: rest =>
    if b.toNat < 0x80 then (decodeFrom (position + 1) rest).map (Char.ofNat b.toNat :: ·)
    else
      match start? b.toNat with
      | none => .error ⟨position, 1, b.toNat, .invalidStart⟩
      | some s =>
        match tail s.bits s.more s.least s.greatest 0 rest with
        | .fault reason fitting => .error ⟨position, fitting + 1, b.toNat, reason⟩
        | .value n used =>
          (decodeFrom (position + used + 1) (rest.drop used)).map (Char.ofNat n :: ·)
termination_by bytes => bytes.length
decreasing_by
  · simp
  · simp only [List.length_drop, List.length_cons]
    omega

/-- The text that the bytes encode. -/
def decode (bytes : List UInt8) : Except Fault (List Char) :=
  decodeFrom 0 bytes

end WhileFrontend.Text.Utf8

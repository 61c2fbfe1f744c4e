import Mathlib.Data.List.TakeWhile

/-!
# Runes of a byte string

How Go reads a string rune by rune. A byte that starts no valid UTF-8 sequence counts as
a rune of its own, the replacement character. A map over the runes therefore need not
keep the length of the string, but it never looks past an ASCII byte.
-/

namespace Kikimora.Lib

def isCont (b : UInt8) : Bool := 0x80 ≤ b && b ≤ 0xBF

def runeError : Nat := 0xFFFD

/-- The second byte of a sequence is in the range that excludes long forms, surrogates and
    runes past U+10FFFF. -/
def secondValid (b c : UInt8) : Bool :=
  if b = 0xE0 then 0xA0 ≤ c
  else if b = 0xED then c ≤ 0x9F
  else if b = 0xF0 then 0x90 ≤ c
  else if b = 0xF4 then c ≤ 0x8F
  else true

def contBits (b : UInt8) : Nat := b.toNat % 0x40

def decodeRune (b : UInt8) (rest : List UInt8) : Nat × Nat :=
  if b < 0x80 then (b.toNat, 1)
  else if 0xC2 ≤ b && b ≤ 0xDF then
    match rest.takeWhile isCont with
    | c :: _ => (b.toNat % 0x20 * 0x40 + contBits c, 2)
    | _ => (runeError, 1)
  else if 0xE0 ≤ b && b ≤ 0xEF then
    match rest.takeWhile isCont with
    | c :: d :: _ =>
      if secondValid b c then ((b.toNat % 0x10 * 0x40 + contBits c) * 0x40 + contBits d, 3)
      else (runeError, 1)
    | _ => (runeError, 1)
  else if 0xF0 ≤ b && b ≤ 0xF4 then
    match rest.takeWhile isCont with
    | c :: d :: e :: _ =>
      if secondValid b c then
        (((b.toNat % 0x08 * 0x40 + contBits c) * 0x40 + contBits d) * 0x40 + contBits e, 4)
      else (runeError, 1)
    | _ => (runeError, 1)
  else (runeError, 1)

def encodeRune (r : Nat) : List UInt8 :=
  let cont (n : Nat) : UInt8 := .ofNat (0x80 + n % 0x40)
  if r < 0x80 then [.ofNat r]
  else if r < 0x800 then [.ofNat (0xC0 + r / 0x40), cont r]
  else if r < 0x10000 && !(0xD800 ≤ r && r ≤ 0xDFFF) then
    [.ofNat (0xE0 + r / 0x1000), cont (r / 0x40), cont r]
  else if 0x10000 ≤ r && r ≤ 0x10FFFF then
    [.ofNat (0xF0 + r / 0x40000), cont (r / 0x1000), cont (r / 0x40), cont r]
  else [0xEF, 0xBF, 0xBD]

/-- The string with a function applied to each rune; the first bytes may belong to a rune
    that has been read already. -/
def mapRunes (f : Nat → Nat) : Nat → List UInt8 → List UInt8
  | _, [] => []
  | skip + 1, _ :: rest => mapRunes f skip rest
  | 0, b :: rest =>
    encodeRune (f (decodeRune b rest).1) ++ mapRunes f ((decodeRune b rest).2 - 1) rest

theorem mapRunes_of_ascii {f : Nat → Nat} {text : List UInt8} (h : ∀ b ∈ text, b < 0x80) :
    mapRunes f 0 text = text.flatMap fun b => encodeRune (f b.toNat) := by
  induction text with
  | nil => rfl
  | cons b text ih =>
    rw [List.forall_mem_cons] at h
    rw [mapRunes, show decodeRune b text = (b.toNat, 1) from if_pos h.1]
    exact congrArg _ (ih h.2)

end Kikimora.Lib

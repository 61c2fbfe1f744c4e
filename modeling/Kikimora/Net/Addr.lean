import Mathlib.Data.BitVec

/-!
# IP addresses and prefixes

The part of Go's `net/netip` that the selected-route code rests on: addresses,
prefixes, masking, the canonical textual forms and their parsers. Everything is
structurally recursive, so prefixes and next hops can be evaluated.
-/

namespace Kikimora.Net

/-- A `netip.Addr`. The zero value is the invalid address. -/
inductive Addr
  | zero
  | v4 (bits : BitVec 32)
  | v6 (bits : BitVec 128) (zone : String)
  deriving DecidableEq, Repr

namespace Addr

def bitLen : Addr → Nat
  | zero => 0
  | v4 _ => 32
  | v6 _ _ => 128

def isValid (a : Addr) : Bool := a != zero

def is4 : Addr → Bool
  | v4 _ => true
  | _ => false

/-- An IPv4-mapped IPv6 address. -/
def is4In6 : Addr → Bool
  | v6 bits _ => bits.toNat / 2 ^ 32 = 0xffff
  | _ => false

/-- The IPv4 address in a mapped one. -/
def unmap : Addr → Addr
  | v6 bits zone => if (v6 bits zone).is4In6 then v4 (bits.setWidth 32) else v6 bits zone
  | a => a

def isLoopback (a : Addr) : Bool :=
  match a.unmap with
  | v4 bits => bits.toNat / 2 ^ 24 = 127
  | v6 bits _ => bits.toNat = 1
  | zero => false

def isUnspecified : Addr → Bool
  | v4 bits => bits = 0
  | v6 bits zone => bits = 0 && zone = ""
  | zero => false

def isMulticast (a : Addr) : Bool :=
  match a.unmap with
  | v4 bits => bits.toNat / 2 ^ 28 = 0xe
  | v6 bits _ => bits.toNat / 2 ^ 120 = 0xff
  | zero => false

def isLinkLocalUnicast (a : Addr) : Bool :=
  match a.unmap with
  | v4 bits => bits.toNat / 2 ^ 16 = 0xa9fe
  | v6 bits _ => bits.toNat / 2 ^ 118 = 0x3fa
  | zero => false

/-- A valid address that is not unspecified, loopback, multicast, link-local or the IPv4
    broadcast address. Private addresses count. -/
def isGlobalUnicast (a : Addr) : Bool :=
  a.isValid && !a.isUnspecified && a ≠ v4 (BitVec.allOnes 32) && !a.isLoopback &&
    !a.isMulticast && !a.isLinkLocalUnicast

def withoutZone : Addr → Addr
  | v6 bits _ => v6 bits ""
  | a => a

def zone : Addr → String
  | v6 _ z => z
  | _ => ""

end Addr

/-- A `netip.Prefix`. Go cannot represent more bits than the address has, so
    such a value counts as invalid here, as does every prefix of the zero
    address. -/
structure Prefix where
  addr : Addr
  bits : Nat
  deriving DecidableEq, Repr

namespace Prefix

def zero : Prefix := ⟨.zero, 0⟩

def isValid (p : Prefix) : Bool := p.addr.isValid && p.bits ≤ p.addr.bitLen

/-- The first bits of a word, the others cleared. -/
def maskBits {w : Nat} (bits : Nat) (x : BitVec w) : BitVec w :=
  (x >>> (w - bits)) <<< (w - bits)

def masked (p : Prefix) : Prefix :=
  if p.isValid then
    match p.addr with
    | .v4 x => ⟨.v4 (maskBits p.bits x), p.bits⟩
    | .v6 x _ => ⟨.v6 (maskBits p.bits x) "", p.bits⟩
    | .zero => zero
  else zero

end Prefix

/-- `IsCanonicalPrefix`: a non-canonical prefix would make the ownership key
    ambiguous. -/
def isCanonicalPrefix (p : Prefix) : Bool := p.isValid && p = p.masked

/-- A prefix that names one address. -/
def isHostPrefix (p : Prefix) : Bool := p.isValid && p.bits = p.addr.bitLen

def prefixFamily (p : Prefix) : Nat := if p.addr.is4 then 4 else 6

theorem isValid_of_isCanonicalPrefix {p : Prefix} (h : isCanonicalPrefix p = true) :
    p.isValid = true := by
  simp only [isCanonicalPrefix, Bool.and_eq_true] at h
  exact h.1

-- === Text ===

/-- The eight 16-bit groups of an address. -/
def groups (x : BitVec 128) : List Nat :=
  (List.range 8).map fun i => x.toNat / 2 ^ (16 * (7 - i)) % 2 ^ 16

def v4String (x : BitVec 32) : String :=
  ".".intercalate ((List.range 4).map fun i => toString (x.toNat / 2 ^ (8 * (3 - i)) % 256))

def hexString (n : Nat) : String := String.ofList (Nat.toDigits 16 n)

def zeroRun : List Nat → Nat
  | 0 :: gs => zeroRun gs + 1
  | _ => 0

/-- The first of the longest runs of zero groups, which `::` stands for. -/
def longestZeroRun (gs : List Nat) : Option (Nat × Nat) :=
  (List.range gs.length).foldl
    (fun best i =>
      let l := zeroRun (gs.drop i)
      if 2 ≤ l && (best.map Prod.snd).getD 0 < l then some (i, l) else best)
    none

def v6String (x : BitVec 128) : String :=
  let gs := groups x
  let text := fun hs : List Nat => ":".intercalate (hs.map hexString)
  match longestZeroRun gs with
  | none => text gs
  | some (start, l) => text (gs.take start) ++ "::" ++ text (gs.drop (start + l))

def Addr.toString : Addr → String
  | .zero => "invalid IP"
  | .v4 x => v4String x
  | .v6 x z =>
    let text := if (Addr.v6 x z).is4In6 then "::ffff:" ++ v4String (x.setWidth 32) else v6String x
    if z = "" then text else text ++ "%" ++ z

def Prefix.toString (p : Prefix) : String :=
  if p.isValid then p.addr.toString ++ "/" ++ Nat.repr p.bits else "invalid Prefix"

-- === Parsing ===

/-- `strings.Split` at a one-character separator. -/
def splitChars (sep : Char) : List Char → List (List Char)
  | [] => [[]]
  | c :: cs =>
    if c = sep then [] :: splitChars sep cs
    else match splitChars sep cs with
      | [] => [[c]]
      | field :: fields => (c :: field) :: fields

def digitValue (c : Char) : Option Nat :=
  if '0' ≤ c ∧ c ≤ '9' then some (c.toNat - '0'.toNat) else none

def hexValue (c : Char) : Option Nat :=
  if '0' ≤ c ∧ c ≤ '9' then some (c.toNat - '0'.toNat)
  else if 'a' ≤ c ∧ c ≤ 'f' then some (c.toNat - 'a'.toNat + 10)
  else if 'A' ≤ c ∧ c ≤ 'F' then some (c.toNat - 'A'.toNat + 10)
  else none

def parseDecimal : List Char → Option Nat
  | [] => none
  | ['0'] => some 0
  | '0' :: _ => none
  | cs => cs.foldlM (fun acc c => (digitValue c).map (acc * 10 + ·)) 0

/-- A leading zero is refused, as by `netip.ParseAddr`. -/
def parseOctet (cs : List Char) : Option Nat :=
  (parseDecimal cs).bind fun n => if n ≤ 255 then some n else none

def parseIPv4 (cs : List Char) : Option (BitVec 32) :=
  match (splitChars '.' cs).mapM parseOctet with
  | some [a, b, c, d] => some (BitVec.ofNat 32 (((a * 256 + b) * 256 + c) * 256 + d))
  | _ => none

/-- One group of at most four hexadecimal digits, and the rest. -/
def takeHex (cs : List Char) : Option (Nat × List Char) :=
  let field := cs.takeWhile fun c => (hexValue c).isSome
  if field.isEmpty || 4 < field.length then none
  else (field.foldlM (fun acc c => (hexValue c).map (acc * 16 + ·)) 0).map
    fun n => (n, cs.drop field.length)

/-- The loop of `parseIPv6`: the groups read so far and the position of the
    `::`, if one was seen. Each round reads one field, so eight rounds and one
    to notice trailing text are enough. -/
def parseGroups : Nat → List Nat → Option Nat → List Char → Option (List Nat × Option Nat)
  | 0, _, _, _ => none
  | fuel + 1, gs, ellipsis, cs =>
    if 8 ≤ gs.length then none
    else (takeHex cs).bind fun (n, rest) =>
      match rest with
      | '.' :: _ =>
        -- a trailing IPv4 address takes the place of the last two fields
        if (ellipsis = none && gs.length ≠ 6) || 6 < gs.length then none
        else (parseIPv4 cs).map fun x =>
          (gs ++ [x.toNat / 2 ^ 16, x.toNat % 2 ^ 16], ellipsis)
      | [] => some (gs ++ [n], ellipsis)
      | [':'] => none
      | ':' :: ':' :: more =>
        if ellipsis.isSome then none
        else if more.isEmpty then some (gs ++ [n], some (gs.length + 1))
        else parseGroups fuel (gs ++ [n]) (some (gs.length + 1)) more
      | ':' :: more => parseGroups fuel (gs ++ [n]) ellipsis more
      | _ => none

/-- Fills the place of the ellipsis with zero groups. -/
def expandGroups : List Nat × Option Nat → Option (List Nat)
  | (gs, none) => if gs.length = 8 then some gs else none
  | (gs, some at_) =>
    if gs.length < 8 then
      some (gs.take at_ ++ List.replicate (8 - gs.length) 0 ++ gs.drop at_)
    else none

def ofGroups (gs : List Nat) : BitVec 128 :=
  BitVec.ofNat 128 (gs.foldl (fun acc g => acc * 2 ^ 16 + g) 0)

def parseIPv6 (cs : List Char) : Option Addr :=
  let body := cs.takeWhile (· ≠ '%')
  let rest := cs.drop body.length
  if rest = ['%'] then none
  else
    let zone := String.ofList (rest.drop 1)
    let parsed := match body with
      | [':', ':'] => some ([], some 0)
      | ':' :: ':' :: more => parseGroups 9 [] (some 0) more
      | _ => parseGroups 9 [] none body
    (parsed.bind expandGroups).map fun gs => .v6 (ofGroups gs) zone

/-- `netip.ParseAddr`: the first `.`, `:` or `%` tells the family. -/
def Addr.parse (s : String) : Option Addr :=
  let cs := s.toList
  match cs.find? fun c => c = '.' || c = ':' || c = '%' with
  | some '.' => (parseIPv4 cs).map .v4
  | some ':' => parseIPv6 cs
  | _ => none

/-- `netip.ParsePrefix`, which takes no zone. -/
def Prefix.parse (s : String) : Option Prefix :=
  let fields := splitChars '/' s.toList
  match fields.getLast?, fields.dropLast with
  | some bitsText, addr :: more =>
    (Addr.parse (String.ofList (['/'].intercalate (addr :: more)))).bind fun ip =>
      if ip.zone ≠ "" then none
      else (parseDecimal bitsText).bind fun bits =>
        if bits ≤ ip.bitLen then some ⟨ip, bits⟩ else none
  | _, _ => none

example : (Prefix.parse "10.1.0.0/16").map Prefix.toString = some "10.1.0.0/16" := by decide
example : (Addr.parse "fe80:0:0:1:0:0:0:2%eth0").map Addr.toString =
    some "fe80:0:0:1::2%eth0" := by
  decide
example : (Addr.parse "::ffff:192.0.2.1").map Addr.is4In6 = some true := by decide

end Kikimora.Net

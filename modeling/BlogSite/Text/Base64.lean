/-!
Reading base 64. Characters outside the alphabet are passed over; two padding signs, or one where
three digits stand, end the text.
-/

namespace BlogSite.Text

/-- The value of a digit of base 64. -/
def base64Value? (c : Char) : Option Nat :=
  if 'A' ≤ c && c ≤ 'Z' then some (c.toNat - 65)
  else if 'a' ≤ c && c ≤ 'z' then some (c.toNat - 71)
  else if '0' ≤ c && c ≤ '9' then some (c.toNat + 4)
  else if c = '+' then some 62
  else if c = '/' then some 63
  else none

/-- The digits of a group of four so far, and the padding signs since the last of them. -/
structure Base64Group where
  digits : List Nat := []
  pads : Nat := 0

/-- The bytes of a whole group. -/
def base64Bytes : List Nat → List UInt8
  | [a, b] => [UInt8.ofNat (a * 4 + b / 16)]
  | [a, b, c] => [UInt8.ofNat (a * 4 + b / 16), UInt8.ofNat (b % 16 * 16 + c / 4)]
  | [a, b, c, d] => [UInt8.ofNat (a * 4 + b / 16), UInt8.ofNat (b % 16 * 16 + c / 4),
      UInt8.ofNat (c % 4 * 64 + d)]
  | _ => []

def base64From? (g : Base64Group) : List Char → Option (List UInt8)
  | [] => if g.digits.isEmpty then some [] else none
  | c :: cs =>
    if c = '=' then
      if 2 ≤ g.digits.length && 4 ≤ g.digits.length + (g.pads + 1) then
        some (base64Bytes g.digits)
      else base64From? { g with pads := if 2 ≤ g.digits.length then g.pads + 1 else g.pads } cs
    else match base64Value? c with
      | none => base64From? g cs
      | some v =>
        let ds := g.digits ++ [v]
        if ds.length = 4 then (base64From? {} cs).map (base64Bytes ds ++ ·)
        else base64From? { digits := ds } cs

/-- The bytes that a text in base 64 spells; `none` when its last group is cut short. -/
def base64? (s : List Char) : Option (List UInt8) := base64From? {} s

end BlogSite.Text

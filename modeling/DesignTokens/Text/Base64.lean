/-!
# Text/Base64 — bytes written in base 64

Four characters write three bytes, six bits a character.  Reading is lenient: what is no digit is
passed over, and so is padding that completes no group of four.  Padding that does complete one ends
the bytes, whatever follows; a group that neither digits nor padding complete is refused.
-/

namespace DesignTokens.Text.Base64

/-- The six bits that a character stands for. -/
def digit? (c : Char) : Option Nat :=
  if c.isUpper then some (c.toNat - 'A'.toNat)
  else if c.isLower then some (c.toNat - 'a'.toNat + 26)
  else if c.isDigit then some (c.toNat - '0'.toNat + 52)
  else if c = '+' then some 62
  else if c = '/' then some 63
  else none

/-- A group of four that has begun: its digits so far, with the bits that no byte has taken yet. -/
inductive Group where
  | empty
  | one (bits : Nat)
  | two (bits : Nat)
  | three (bits : Nat)

/-- A further digit: the byte that it completes, and the group after it. -/
def Group.add (d : Nat) : Group → Option UInt8 × Group
  | .empty => (none, .one d)
  | .one bits => (some (UInt8.ofNat (bits * 4 + d / 16)), .two (d % 16))
  | .two bits => (some (UInt8.ofNat (bits * 16 + d / 4)), .three (d % 4))
  | .three bits => (some (UInt8.ofNat (bits * 64 + d)), .empty)

/-- How many characters of padding complete a group that padding may complete. -/
def Group.owed? : Group → Option Nat
  | .empty | .one _ => none
  | .two _ => some 2
  | .three _ => some 1

/-- Reads on inside a group, behind some characters of padding. -/
def decodeFrom (group : Group) (padding : Nat) : List Char → Option (List UInt8)
  | [] =>
    match group with
    | .empty => some []
    | _ => none
  | c :: rest =>
    if c = '=' then
      match group.owed? with
      | none => decodeFrom group padding rest
      | some owed => if owed ≤ padding + 1 then some [] else decodeFrom group (padding + 1) rest
    else
      match digit? c with
      | none => decodeFrom group padding rest
      | some d =>
        let (byte, group) := group.add d
        (decodeFrom group 0 rest).map (byte.toList ++ ·)

/-- The bytes that a text writes. -/
def decode (cs : List Char) : Option (List UInt8) := decodeFrom .empty 0 cs

end DesignTokens.Text.Base64

import DesignTokens.Text.Digit

/-!
# Key — keys with numbers at their end

A key ends in a number when its last hyphen has a stem before it and nothing but digits after it; a
line feed at the very end does not count, and a stem holds none.  Keys are ordered by their stems,
character by character, and keys of one stem by their numbers, a key without one first.

* `Key.sort` — the keys in that order; keys that compare equal stay as they were.
-/

namespace DesignTokens

open Text

/-- A key taken apart. -/
structure KeyParts where
  /-- The key before the hyphen, or all of it. -/
  stem : String
  /-- The number after the hyphen. -/
  number : Option Nat
  deriving DecidableEq, Repr

namespace Key

/-- A text without the line feed at its end, if there is one. -/
def dropFinalNewline (cs : List Char) : List Char :=
  if cs.getLast? = some '\n' then cs.dropLast else cs

/-- The stem and the digits of a key that ends in a number. -/
def numbered? (cs : List Char) : Option (List Char × List Char) :=
  let back := (dropFinalNewline cs).reverse
  let digits := (back.takeWhile isDigit).reverse
  match back.dropWhile isDigit with
  | '-' :: stem =>
    if digits ≠ [] ∧ stem ≠ [] ∧ '\n' ∉ stem then some (stem.reverse, digits) else none
  | _ => none

/-- Takes a key apart. -/
def split (key : String) : Except TooManyDigits KeyParts :=
  match numbered? key.toList with
  | none => .ok ⟨key, none⟩
  | some (stem, digits) =>
    match readDigits digits with
    | .ok n => .ok ⟨String.ofList stem, some n⟩
    | .error e => .error e

end Key

/-- The order of keys: by stem, then by number. -/
def KeyParts.compare (a b : KeyParts) : Ordering :=
  (Ord.compare a.stem b.stem).then (Ord.compare a.number b.number)

namespace Key

/-- Compares two keys. -/
def compare (a b : String) : Except TooManyDigits Ordering := do
  let pa ← split a
  let pb ← split b
  return pa.compare pb

/-- The keys with their parts.  Sorting starts by comparing the second key with the first, so these
two are taken apart in that order; a key alone is compared with nothing. -/
def splitAll : List String → Except TooManyDigits (List (String × KeyParts))
  | [] => .ok []
  | [a] => .ok [(a, ⟨a, none⟩)]
  | a :: b :: rest => do
    let pb ← split b
    let pa ← split a
    let parts ← rest.mapM split
    return (a, pa) :: (b, pb) :: rest.zip parts

/-- The keys in order. -/
def sort (keys : List String) : Except TooManyDigits (List String) := do
  let parts ← splitAll keys
  return (parts.mergeSort fun a b => (a.2.compare b.2).isLE).map Prod.fst

end Key

end DesignTokens

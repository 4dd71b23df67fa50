/-!
# Punycode

**Input.**
A label of a name of a host, with characters outside ASCII.

**Result.**
`punycode` writes it with ASCII characters alone: those of the label, a hyphen, and the places of
all others as numbers with digits of varying weight.
-/

namespace BatchRun
namespace Http

/-- A digit with a value below 36. -/
def punycodeDigit (n : Nat) : Char :=
  if n < 26 then Char.ofNat (97 + n) else Char.ofNat (22 + n)

/-- Bias behind a number: `count` characters have been written, and `first` tells whether the
number was the first one. -/
def adapt (delta count : Nat) (first : Bool) : Nat :=
  let delta := if first then delta / 700 else delta / 2
  go (delta + delta / count) 0 (delta + delta / count + 1)
where
  /-- Divides until the number is small; `fuel` bounds the number of steps. -/
  go (delta k : Nat) : (fuel : Nat) → Nat
    | 0 => k
    | fuel + 1 => if 455 < delta then go (delta / 35) (k + 36) fuel
        else k + 36 * delta / (delta + 38)

/-- Digits of a number; `fuel` bounds their number. -/
def punycodeNumber (bias : Nat) : (fuel k q : Nat) → List Char
  | 0, _, _ => []
  | fuel + 1, k, q =>
    let t := if k ≤ bias then 1 else if bias + 26 ≤ k then 26 else k - bias
    if q < t then [punycodeDigit q]
    else
      punycodeDigit (t + (q - t) % (36 - t))
        :: punycodeNumber bias fuel (k + 36) ((q - t) / (36 - t))

/-- Where the encoding of a label stands. -/
structure PunycodeState where
  delta : Nat := 0
  bias : Nat := 72
  /-- Number of characters that have been written. -/
  written : Nat
  text : List Char

/-- Passes one character of the label while those with the code `n` are written. -/
def passCharacter (basics n : Nat) (s : PunycodeState) (c : Char) : PunycodeState :=
  if c.toNat < n then { s with delta := s.delta + 1 }
  else if c.toNat = n then
    { delta := 0
      bias := adapt s.delta (s.written + 1) (s.written == basics)
      written := s.written + 1
      text := s.text ++ punycodeNumber s.bias (s.delta + 1) 36 s.delta }
  else s

/-- Writes the characters with each of the given codes, which ascend from `n` on. -/
def punycodeRounds (label : List Char) (basics : Nat) :
    (n : Nat) → PunycodeState → List Nat → PunycodeState
  | _, s, [] => s
  | n, s, code :: codes =>
    let s := { s with delta := s.delta + (code - n) * (s.written + 1) }
    let s := label.foldl (passCharacter basics code) s
    punycodeRounds label basics (code + 1) { s with delta := s.delta + 1 } codes

/-- A label with ASCII characters alone. -/
def punycode (label : List Char) : List Char :=
  let basic := label.filter (fun c => c.toNat < 128)
  let codes := ((label.map Char.toNat).filter (128 ≤ ·)).mergeSort.eraseDups
  let start := if basic.isEmpty then [] else basic ++ ['-']
  (punycodeRounds label basic.length 128 { written := basic.length, text := start } codes).text

end Http
end BatchRun

import AbilityScript.Text.Basic

/-!
# Similar words

How alike two words are, between 0 and 1, by the measure of Jaro and Winkler in double precision: the
shared letters that stand about where they do in the other word, less those that are out of order,
and a bonus for a common beginning of any length.

## Main definitions

* `Similarity.jaro`, `Similarity.jaroWinkler`: the two measures.
* `Similarity.closest`: the word to suggest in place of a misspelled one.
-/

set_option autoImplicit false

namespace AbilityScript.Similarity

/-- How far a letter may stand from its counterpart. -/
def reach (s t : Text) : Nat :=
  max s.length t.length / 2 - 1

/-- The letters of the other word that are still free, with their places. -/
abbrev Free := List (Nat × Char)

/-- The places in the other word of the letters of a word, as far as they have a counterpart within
reach. The first letter stands at `i`; every counterpart serves once. -/
def matchPlaces (reach i : Nat) (free : Free) : Text → List Nat
  | [] => []
  | c :: cs =>
    match free.find? fun f => i ≤ f.1 + reach && f.1 ≤ i + reach && f.2 == c with
    | some f => f.1 :: matchPlaces reach (i + 1) (free.erase f) cs
    | none => matchPlaces reach (i + 1) free cs

/-- How many places come right after a greater one. -/
def descents (last : Nat) : List Nat → Nat
  | [] => 0
  | j :: js => (if j < last then 1 else 0) + descents j js

/-- How alike two words are, by their shared letters. -/
def jaro (s t : Text) : Float :=
  if s.isEmpty && t.isEmpty then 1
  else if s.isEmpty || t.isEmpty then 0
  else if s.length == 1 && t.length == 1 then (if s == t then 1 else 0)
  else
    let places := matchPlaces (reach s t) 0 ((List.range t.length).zip t) s
    if places.isEmpty then 0
    else
      let shared := places.length.toFloat
      let unordered := (descents 0 places).toFloat
      (1.0 / 3.0) * (shared / s.length.toFloat + shared / t.length.toFloat +
        (shared - unordered) / shared)

/-- How many letters two words have in common at the beginning. -/
def commonPrefix : Text → Text → Nat
  | c :: s, d :: t => if c = d then commonPrefix s t + 1 else 0
  | _, _ => 0

/-- How alike two words are, with the bonus for a common beginning. -/
def jaroWinkler (s t : Text) : Float :=
  let base := jaro s t
  let total := base + 0.1 * (commonPrefix s t).toFloat * (1.0 - base)
  if total ≤ 1.0 then total else 1.0

/-- How alike a word has to be to be worth a suggestion. -/
def threshold : Float := 0.85

/-- The better of what was found so far and another word; of equals, the other word. -/
def better (best : Option (Float × String)) (candidate : Float × String) :
    Option (Float × String) :=
  match best with
  | none => some candidate
  | some b => if candidate.1 < b.1 then some b else some candidate

/-- The candidate most like a name in upper case, if one is alike enough; of equals, the last one. -/
def closest (name : Text) (candidates : List String) : Option String :=
  let upper := name.map Char.toUpper
  let scored := candidates.map fun c => (jaroWinkler upper c.toList, c)
  ((scored.filter fun s => threshold ≤ s.1).foldl better none).map (·.2)

end AbilityScript.Similarity

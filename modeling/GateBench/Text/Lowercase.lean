import GateBench.Text.CaseTable

/-!
Lower-case forms of texts by the rules of Unicode, without those of any language.  A capital sigma
becomes a final sigma at the end of a word, and a capital I with a dot keeps its dot.
-/

namespace GateBench.Text

/-- Whether a code point lies in one of the ranges. -/
def inRanges (ranges : List (Nat × Nat)) (c : Char) : Bool :=
  ranges.any fun (first, last) => first ≤ c.toNat && c.toNat ≤ last

/-- The lower-case form of a character, apart from what its neighbours or more than one character
would decide. -/
def lowerChar (c : Char) : Char :=
  if c.toNat < 0x80 then c.toLower
  else
    let n := c.toNat
    match lowerRuns.find? fun run =>
        run.first ≤ n && n ≤ run.last && (n - run.first) % run.step = 0 with
    | some run => Char.ofNat (run.image + (n - run.first))
    | none => c

/-- Whether a cased letter comes first once case-ignorable characters are skipped. -/
def casedNext (chars : List Char) : Bool :=
  match chars.dropWhile (inRanges caseIgnorableRanges) with
  | c :: _ => inRanges casedRanges c
  | [] => false

/-- The lower-case form of the characters behind `before`, which holds those in front of them, the
nearest first. -/
def lowerFrom (before : List Char) : List Char → List Char
  | [] => []
  | c :: after =>
    let form :=
      if c = 'Σ' then [if casedNext before && !casedNext after then 'ς' else 'σ']
      else if c = 'İ' then ['i', '\u0307']
      else [lowerChar c]
    form ++ lowerFrom (c :: before) after

/-- The lower-case form of a text. -/
def lowercase (text : String) : String :=
  String.ofList (lowerFrom [] text.toList)

example : lowercase "ÉLAN Σ ΑΣ" = "élan σ ας" := by decide +kernel

end GateBench.Text

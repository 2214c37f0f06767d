/-!
Blank characters and trimming.  A character is blank exactly when it carries the property
`White_Space` of the Unicode standard; trimming removes the blank runs at both ends of a text and
nothing else.
-/

namespace GateBench.Text

/-- The code points with the property `White_Space`, as closed ranges. -/
def blankRanges : List (Nat × Nat) :=
  [(0x09, 0x0D), (0x20, 0x20), (0x85, 0x85), (0xA0, 0xA0), (0x1680, 0x1680), (0x2000, 0x200A),
    (0x2028, 0x2029), (0x202F, 0x202F), (0x205F, 0x205F), (0x3000, 0x3000)]

/-- Whether a character is white space in the sense of Unicode. -/
def isBlank (c : Char) : Bool :=
  blankRanges.any fun (first, last) => first ≤ c.toNat && c.toNat ≤ last

/-- What is left of `chars` without the blank run at its end. -/
def trimEndChars (chars : List Char) : List Char :=
  (chars.reverse.dropWhile isBlank).reverse

/-- What is left of `chars` without the blank runs at both ends. -/
def trimChars (chars : List Char) : List Char :=
  trimEndChars (chars.dropWhile isBlank)

/-- Remove the blank runs at both ends of a text. -/
def trim (text : String) : String :=
  String.ofList (trimChars text.toList)

/-- Remove the blank run at the end of a text. -/
def trimEnd (text : String) : String :=
  String.ofList (trimEndChars text.toList)

example : trim "\t a b\u3000\u0085" = "a b" := by decide
example : ('\u200b' : Char) |> isBlank |> not := by decide

end GateBench.Text

/-!
# Trimmed text

`strings.TrimSpace` of Go on valid text: the characters of `unicode.IsSpace` are cut
off at both ends.
-/

namespace Text

/-- The characters with the property White_Space. -/
def isSpace (c : Char) : Bool :=
  let n := c.toNat
  decide (9 ≤ n ∧ n ≤ 13 ∨ 0x2000 ≤ n ∧ n ≤ 0x200a) ||
    [0x20, 0x85, 0xa0, 0x1680, 0x2028, 0x2029, 0x202f, 0x205f, 0x3000].contains n

/-- Irreducible, so that no proof looks into the text. -/
@[irreducible] def trimSpace (s : String) : String :=
  String.ofList ((s.toList.dropWhile isSpace).reverse.dropWhile isSpace).reverse

theorem trimSpace_empty : trimSpace "" = "" := by decide +kernel

theorem dropWhile_isSpace {l : List Char} (h : ∀ c ∈ l, isSpace c = false) :
    l.dropWhile isSpace = l := by
  cases l with
  | nil => rfl
  | cons c l => rw [List.dropWhile_cons_of_neg (by simp [h c List.mem_cons_self])]

/-- Text without white space stays as it is. -/
theorem trimSpace_of_forall {s : String} (h : ∀ c ∈ s.toList, isSpace c = false) :
    trimSpace s = s := by
  have hreverse : ∀ c ∈ s.toList.reverse, isSpace c = false := fun c hc =>
    h c (List.mem_reverse.mp hc)
  rw [trimSpace, dropWhile_isSpace h, dropWhile_isSpace hreverse, List.reverse_reverse,
    String.ofList_toList]

end Text

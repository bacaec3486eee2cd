/-!
# Text/Pieces — text cut at a separator
-/

namespace DesignTokens.Text

/-- The pieces of a text between separators; there is one more than there are separators. -/
def pieces (sep : Char) : List Char → List (List Char)
  | [] => [[]]
  | c :: cs =>
    if c = sep then [] :: pieces sep cs
    else match pieces sep cs with
      | [] => [[c]]
      | p :: rest => (c :: p) :: rest

end DesignTokens.Text

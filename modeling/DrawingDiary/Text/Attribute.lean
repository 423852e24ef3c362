import DrawingDiary.Text.Substitution

/-!
# Text inside a quoted attribute

`escapeAttribute` writes the four markup characters as entities. The ampersand
comes first, so the ampersands of the entities written later are left alone.
`decodeEntities` reads the four entities back in a single pass.
-/

namespace DrawingDiary.Text

/-- The markup characters and their entities, in the order of replacement. -/
def attributeEntities : List Rule :=
  [(['&'], "&amp;".toList), (['"'], "&quot;".toList),
    (['<'], "&lt;".toList), (['>'], "&gt;".toList)]

/-- The text as it stands inside a quoted attribute. -/
def escapeAttribute (text : String) : String :=
  String.ofList (replaceInTurn attributeEntities text.toList)

/-- The text with the four entities read back, from the left and once. -/
def decodeEntities (text : String) : String :=
  String.ofList
    (substitute (attributeEntities.map fun rule => (rule.2, rule.1)) text.toList)

end DrawingDiary.Text

/-!
# Endings

What stands in front of an ending of a text.
-/

namespace StackLang.Text

/-- The text in front of a given ending, or nothing when the text does not end so. -/
def beforeEnding (ending text : String) : String :=
  if ending.toList.isSuffixOf text.toList then
    String.ofList (text.toList.take (text.toList.length - ending.toList.length))
  else ""

/-- In front of an ending that was put behind a text stands that text. -/
@[simp] theorem beforeEnding_append (text ending : String) :
    beforeEnding ending (text ++ ending) = text := by
  simp [beforeEnding]

/-- A text that does not end as asked has nothing in front of the ending. -/
theorem beforeEnding_of_not_suffix {text ending : String}
    (h : ¬ ending.toList <:+ text.toList) : beforeEnding ending text = "" := by
  simp [beforeEnding, h]

end StackLang.Text

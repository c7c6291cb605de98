import SceneMarkup.Filters.Concatenate
import SceneMarkup.Filters.Count
import SceneMarkup.Filters.Edit
import SceneMarkup.Filters.Select
import SceneMarkup.Filters.Translate

namespace SceneMarkup.Filters

/-!
# The standard filters

A formatter is any program, so what it does is no part of a conversion: conversions
take a table of filters, and what is proved of them is proved for every table.  The
standard table holds the filters that a component is piped through when the program
runs.  Of these only the editor can write files; the others read.
-/

/-- The filters that every system has. -/
def standard : FilterTable
  | "cat" => some concatenate
  | "grep" => some select
  | "sed" => some edit
  | "tr" => some translate
  | "wc" => some count
  | _ => none

theorem readsOnly_concatenate :
    ReadsOnly concatenate := by
  intro tree words text
  unfold concatenate
  split <;> rfl

theorem readsOnly_count :
    ReadsOnly count := by
  intro tree words text
  unfold count
  split <;> rfl

theorem readsOnly_select :
    ReadsOnly select := by
  intro tree words text
  unfold select
  simp only
  split
  next => rfl
  next => split <;> rfl

theorem readsOnly_translate :
    ReadsOnly translate := by
  intro tree words text
  unfold translate
  split
  next => rfl
  next =>
    simp only
    split
    next => rfl
    next => split <;> rfl

/-- Every standard filter but the editor only reads. -/
theorem readsOnly_of_standard
    {name : String}
    {filter : Filter}
    (found : standard name = some filter)
    (other : name ≠ "sed") :
    ReadsOnly filter := by
  unfold standard at found
  split at found
  · cases found
    exact readsOnly_concatenate
  · cases found
    exact readsOnly_select
  · exact absurd rfl other
  · cases found
    exact readsOnly_translate
  · cases found
    exact readsOnly_count
  · cases found

end SceneMarkup.Filters

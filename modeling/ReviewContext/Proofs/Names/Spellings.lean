import ReviewContext.Change.ChangedFile

/-! # The words for a status and for a strategy

A table tells what each word means, the same for more than one of them. The words are read in any case of their
letters, those for a strategy also with hyphens for underscores, and no other word is read.
-/

namespace ReviewContext

/-- What a word is read as is what a table has for it, if that holds of the words of the table and no other is read. -/
private theorem eq_lookup {α : Type} {table : List (String × α)} {word : String} {result : Option α}
    (listed : ∀ entry ∈ table, word = entry.1 → result = some entry.2)
    (other : word ∉ table.map Prod.fst → result = none) : result = table.lookup word := by
  cases found : table.lookup word with
  | some a =>
    obtain ⟨front, back, rfl, -⟩ := List.lookup_eq_some_iff.mp found
    exact listed (word, a) (List.mem_append_right front List.mem_cons_self) rfl
  | none =>
    refine other fun member => ?_
    obtain ⟨entry, known, same⟩ := List.mem_map.mp member
    exact bne_iff_ne.mp (List.lookup_eq_none_iff.mp found entry known) same.symm

namespace FileStatus

/-- The words for a status, in lower case. -/
def spellings : List (String × FileStatus) :=
  [("added", added), ("copied", added), ("modified", modified), ("changed", modified), ("unchanged", modified),
    ("removed", removed), ("deleted", removed), ("renamed", renamed)]

/-- A status is read by the table, whatever the case of the word. -/
theorem read?_eq_lookup (s : String) : read? s = spellings.lookup (String.ofList (Text.lower s.toList)) := by
  unfold read? normalise
  generalize String.ofList _ = word
  refine eq_lookup ?_ fun unknown => ?_
  · rintro entry known rfl
    revert entry
    decide
  have unnamed : ofName? word = none := by
    refine List.find?_eq_none.mpr fun status _ same => unknown ?_
    rw [← beq_iff_eq.mp same]
    cases status <;> decide
  simp only [spellings, List.map_cons, List.map_nil, List.mem_cons, List.not_mem_nil, or_false, not_or] at unknown
  simp [unknown, unnamed]

end FileStatus

namespace Strategy

/-- The words for a strategy, in lower case and with underscores. -/
def spellings : List (String × Strategy) :=
  [("diff_only", diffOnly), ("diff", diffOnly), ("full_files", fullFiles), ("full", fullFiles),
    ("dependency_aware", dependencyAware), ("deps", dependencyAware)]

/-- A strategy is read by the table, whatever the case of the word, and hyphens stand for underscores. -/
theorem read?_eq_lookup (s : String) :
    read? s = spellings.lookup (String.ofList ((Text.lower s.toList).map fun c => if c = '-' then '_' else c)) := by
  unfold read? normalise
  generalize String.ofList _ = word
  refine eq_lookup ?_ fun unknown => ?_
  · rintro entry known rfl
    revert entry
    decide
  have unnamed : ofName? word = none := by
    refine List.find?_eq_none.mpr fun strategy _ same => unknown ?_
    rw [← beq_iff_eq.mp same]
    cases strategy <;> decide
  simp only [spellings, List.map_cons, List.map_nil, List.mem_cons, List.not_mem_nil, or_false, not_or] at unknown
  simp [unknown, unnamed]

end Strategy

end ReviewContext

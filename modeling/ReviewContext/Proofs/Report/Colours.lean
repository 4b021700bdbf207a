import ReviewContext.Proofs.Report.Sequences
import ReviewContext.Proofs.Text.Truncation
import ReviewContext.Report.Terminal

/-! # Colours only decorate

What a reader without colours sees of the coloured report is what is left of the plain one, whatever the texts of
the files hold: a sequence that a text breaks off is not completed by what the report puts behind the text. If no
text that is shown holds an escape character, that is the plain report itself.
-/

namespace ReviewContext.Report

variable {c : Char} {rest text : List Char}

/-! ## Rows of pieces -/

/-- A text that breaks off no sequence which something behind it could complete. -/
def Closed (text : List Char) : Prop :=
  ∀ rest, withoutSequences (text ++ rest) = withoutSequences text ++ withoutSequences rest

/-- With colours and without, a row of pieces leaves the same behind, if what follows it does. -/
def Decorates (row : List Piece) : Prop :=
  ∀ coloured plain, withoutSequences coloured = withoutSequences plain →
    withoutSequences (write true row ++ coloured) = withoutSequences (write false row ++ plain)

/-- No piece holds an escape character. -/
def Clean (row : List Piece) : Prop :=
  ∀ piece ∈ row, escape ∉ piece.text

private theorem closed_of_clean (clean : escape ∉ text) : Closed text := by
  intro rest
  rw [withoutSequences_clean clean, withoutSequences_of_clean clean]

/-- The text of a file may break off a sequence, if something stands behind it that stops it. -/
theorem closed_of_stops (stops : Stops c) (clean : escape ∉ rest) (other : c ≠ escape) (text : List Char) :
    Closed (text ++ c :: rest) := by
  have closed : Closed (c :: rest) := closed_of_clean (List.not_mem_cons_of_ne_of_not_mem (Ne.symm other) clean)
  intro more
  rw [List.append_assoc, List.cons_append, withoutSequences_append stops, withoutSequences_append stops,
    ← List.cons_append, closed more, List.append_assoc]

/-- The sequences around a styled text close it, whatever it breaks off. -/
theorem withoutSequences_coloured {piece : Piece} (styled : piece.styles ≠ []) (rest : List Char) :
    withoutSequences (piece.coloured ++ rest) = withoutSequences piece.text ++ withoutSequences rest := by
  have stops : Stops escape := by decide
  have around : piece.coloured ++ rest =
      switchOn piece.styles ++ (afterResets (switchOn piece.styles) piece.text ++ (reset ++ rest)) := by
    rw [Piece.coloured, if_neg (by simpa using styled)]
    simp only [List.append_assoc]
  rw [around, withoutSequences_switchOn, reset, List.cons_append, withoutSequences_append stops,
    withoutSequences_afterResets, ← List.cons_append, ← reset, withoutSequences_reset]

namespace Decorates

variable {piece : Piece} {row more : List Piece}

private theorem nil : Decorates [] :=
  fun _ _ same => same

private theorem append (first : Decorates row) (next : Decorates more) : Decorates (row ++ more) := by
  intro coloured plain same
  simp only [write, List.flatMap_append, List.append_assoc]
  exact first _ _ (next _ _ same)

private theorem write_true_cons (piece : Piece) (row : List Piece) (rest : List Char) :
    write true (piece :: row) ++ rest = piece.coloured ++ (write true row ++ rest) :=
  List.append_assoc _ _ _

private theorem write_false_cons (piece : Piece) (row : List Piece) (rest : List Char) :
    write false (piece :: row) ++ rest = piece.text ++ (write false row ++ rest) :=
  List.append_assoc _ _ _

private theorem cons (closed : Closed piece.text) (rest : Decorates row) : Decorates (piece :: row) := by
  intro coloured plain same
  rw [write_true_cons, write_false_cons, closed, ← rest coloured plain same]
  by_cases styled : piece.styles = []
  · rw [Piece.coloured, if_pos (by simp [styled]), closed]
  · exact withoutSequences_coloured styled _

/-- A styled text may break off a sequence, if something plain behind it stops it. -/
theorem cons_stopped {tail : List Char} (styled : piece.styles ≠ []) (stops : Stops c) (closed : Closed (c :: tail))
    (rest : Decorates row) : Decorates (piece :: ⟨[], c :: tail⟩ :: row) := by
  intro coloured plain same
  have later := cons (show Closed (⟨[], c :: tail⟩ : Piece).text from closed) rest coloured plain same
  have behind : write false (⟨[], c :: tail⟩ :: row) ++ plain = c :: (tail ++ (write false row ++ plain)) :=
    write_false_cons _ _ _
  rw [write_true_cons, withoutSequences_coloured styled, later, write_false_cons piece, behind,
    withoutSequences_append stops]

private theorem of_clean (clean : Clean row) : Decorates row := by
  induction row with
  | nil => exact nil
  | cons piece row ih =>
    obtain ⟨first, later⟩ := List.forall_mem_cons.mp clean
    exact (ih later).cons (closed_of_clean first)

private theorem flatMap {α : Type} {xs : List α} {pieces : α → List Piece} (each : ∀ x ∈ xs, Decorates (pieces x)) :
    Decorates (xs.flatMap pieces) := by
  induction xs with
  | nil => exact nil
  | cons x xs ih =>
    obtain ⟨first, later⟩ := List.forall_mem_cons.mp each
    exact first.append (ih later)

end Decorates

/-! ## Reports -/

open Piece (plain)

private theorem clean_toString (n : Nat) : escape ∉ (toString n).toList :=
  fun member => absurd (Excerpt.isDigit_of_mem_toString member) (by decide)

private theorem clean_contentPieces (content : String) : Clean (contentPieces content) := by
  have counted : escape ∉ (" " ++ toString content.toList.length ++ " chars" ++
      (if Excerpt.isTruncated content.toList then " (truncated)" else "") ++ "\n").toList := by
    simp only [String.toList_append, List.mem_append, not_or]
    refine ⟨⟨⟨⟨by decide, clean_toString _⟩, by decide⟩, ?_⟩, by decide⟩
    split <;> decide
  simp only [Clean, contentPieces, List.forall_mem_cons]
  exact ⟨by decide, by decide, counted, nofun⟩

private theorem clean_summaryPieces (summary : Summary) : Clean (summaryPieces summary) := by
  have counted (styles : List Style) (count : Nat) : escape ∉ (countPiece styles count).text := clean_toString count
  have named (count : Nat) : escape ∉ (plain (" " ++ plural count "dependent" ++ ", ")).text ∧
      escape ∉ (plain (" " ++ plural count "test" ++ ", ")).text := by
    unfold plural
    split <;> exact ⟨by decide, by decide⟩
  simp only [Clean, summaryPieces, List.forall_mem_cons]
  exact ⟨by decide, by decide, counted _ _, by decide, counted _ _, by decide, counted _ _, (named _).1, counted _ _,
    (named _).2, counted _ _, by decide, nofun⟩

private theorem decorates_relatedPieces (file : RelatedFile) : Decorates (relatedPieces file) := by
  have named : Closed (" " ++ file.filename ++ " (" ++ file.relationship.name ++ ")\n").toList := by
    have clean : escape ∉ ("(" ++ file.relationship.name ++ ")\n").toList := by
      cases file.relationship <;> decide
    have split : (" " ++ file.filename ++ " (" ++ file.relationship.name ++ ")\n").toList =
        (" " ++ file.filename).toList ++ ' ' :: ("(" ++ file.relationship.name ++ ")\n").toList := by
      simp
    rw [split]
    exact closed_of_stops (by decide) clean (by decide) _
  refine .cons (closed_of_clean ?_) (.cons (closed_of_clean ?_) (.cons named .nil)) <;> decide

private theorem decorates_degradationPieces (reason : String) : Decorates (degradationPieces reason) := by
  have told : Closed (" " ++ reason ++ "\n").toList := by
    rw [String.toList_append]
    exact closed_of_stops (by decide) (by decide) (by decide) _
  refine .cons (closed_of_clean ?_) (.cons (closed_of_clean ?_) (.cons told .nil)) <;> decide

private theorem clean_statusPiece (status : FileStatus) : escape ∉ (statusPiece status).text := by
  cases status <;> decide

private theorem clean_strategyPiece (strategy : Option Strategy) : escape ∉ (strategyPiece strategy).text := by
  rcases strategy with _ | _ | _ | _ <;> decide

private theorem decorates_filePieces (file : ChangedFile) : Decorates (filePieces file) := by
  have title : Decorates [plain " ", statusPiece file.status, plain " ", ⟨[.bold], file.filename.toList⟩, plain " [",
      strategyPiece file.strategy, plain "]\n"] := by
    have front : Clean [plain " ", statusPiece file.status, plain " "] := by
      simp only [Clean, List.forall_mem_cons]
      exact ⟨by decide, clean_statusPiece _, by decide, nofun⟩
    have behind : Clean [strategyPiece file.strategy, plain "]\n"] := by
      simp only [Clean, List.forall_mem_cons]
      exact ⟨clean_strategyPiece _, by decide, nofun⟩
    have bracket : Closed " [".toList := closed_of_clean (by decide)
    exact (Decorates.of_clean front).append
      (.cons_stopped (List.cons_ne_nil _ _) (by decide) bracket (.of_clean behind))
  have content : Decorates ((file.fullContent.map contentPieces).getD []) := by
    cases file.fullContent with
    | none => exact .nil
    | some content => exact .of_clean (clean_contentPieces content)
  have degradation : Decorates ((file.degradation.map degradationPieces).getD []) := by
    cases file.degradation with
    | none => exact .nil
    | some reason => exact decorates_degradationPieces reason
  have blank : Decorates [plain "\n"] := .cons (closed_of_clean (by decide)) .nil
  exact (((title.append content).append (.flatMap fun related _ => decorates_relatedPieces related)).append
    degradation).append blank

/-- Whatever the texts of the files hold, the report with colours differs from the one without in sequences only. -/
theorem withoutSequences_terminal (files : List ChangedFile) :
    withoutSequences (terminal true files).toList = withoutSequences (terminal false files).toList := by
  have decorates : Decorates (pieces files) := by
    rw [pieces]
    split
    · exact .cons (closed_of_clean (by decide)) .nil
    · exact (Decorates.flatMap fun file _ => decorates_filePieces file).append (.of_clean (clean_summaryPieces _))
  have same := decorates [] [] rfl
  rwa [List.append_nil, List.append_nil, ← String.toList_ofList (l := write true _),
    ← String.toList_ofList (l := write false _)] at same

/-- The texts of a changed file that a report shows as they are. -/
def shownTexts (file : ChangedFile) : List String :=
  file.filename :: ((file.dependencies.map Bundle.relatedFiles).getD []).map (·.filename) ++ file.degradation.toList

private theorem clean_relatedPieces {file : RelatedFile} (named : escape ∉ file.filename.toList) :
    Clean (relatedPieces file) := by
  have line : escape ∉ (" " ++ file.filename ++ " (" ++ file.relationship.name ++ ")\n").toList := by
    have relationship : escape ∉ file.relationship.name.toList := by
      cases file.relationship <;> decide
    simp only [String.toList_append, List.mem_append, not_or]
    exact ⟨⟨⟨⟨by decide, named⟩, by decide⟩, relationship⟩, by decide⟩
  simp only [Clean, relatedPieces, List.forall_mem_cons]
  exact ⟨by decide, by decide, line, nofun⟩

private theorem clean_degradationPieces {reason : String} (told : escape ∉ reason.toList) :
    Clean (degradationPieces reason) := by
  have line : escape ∉ (" " ++ reason ++ "\n").toList := by
    simp only [String.toList_append, List.mem_append, not_or]
    exact ⟨⟨by decide, told⟩, by decide⟩
  simp only [Clean, degradationPieces, List.forall_mem_cons]
  exact ⟨by decide, by decide, line, nofun⟩

private theorem clean_filePieces {file : ChangedFile} (clean : ∀ text ∈ shownTexts file, escape ∉ text.toList) :
    Clean (filePieces file) := by
  obtain ⟨named, others⟩ := List.forall_mem_cons.mp clean
  obtain ⟨related, reasons⟩ := List.forall_mem_append.mp others
  have title : Clean [plain " ", statusPiece file.status, plain " ", ⟨[.bold], file.filename.toList⟩, plain " [",
      strategyPiece file.strategy, plain "]\n"] := by
    simp only [Clean, List.forall_mem_cons]
    exact ⟨by decide, clean_statusPiece _, by decide, named, by decide, clean_strategyPiece _, by decide, nofun⟩
  have content : Clean ((file.fullContent.map contentPieces).getD []) := by
    cases file.fullContent with
    | none => exact nofun
    | some content => exact clean_contentPieces content
  have listed : Clean (((file.dependencies.map Bundle.relatedFiles).getD []).flatMap relatedPieces) := by
    intro piece member
    obtain ⟨other, known, inside⟩ := List.mem_flatMap.mp member
    exact clean_relatedPieces (related _ (List.mem_map_of_mem known)) piece inside
  have degradation : Clean ((file.degradation.map degradationPieces).getD []) := by
    cases told : file.degradation with
    | none => exact nofun
    | some reason => exact clean_degradationPieces (reasons reason (by simp [told]))
  simp only [Clean, filePieces, List.forall_mem_append, List.forall_mem_singleton]
  exact ⟨⟨⟨⟨title, content⟩, listed⟩, degradation⟩, by decide⟩

/-- Without its sequences the report with colours is the one without, if no text that it shows holds an escape
character. The other texts of the files may hold any. -/
theorem colours_only_decorate {files : List ChangedFile}
    (clean : ∀ file ∈ files, ∀ text ∈ shownTexts file, escape ∉ text.toList) :
    withoutSequences (terminal true files).toList = (terminal false files).toList := by
  have all : Clean (pieces files) := by
    rw [pieces]
    split
    · exact List.forall_mem_singleton.mpr (by decide)
    · refine List.forall_mem_append.mpr ⟨fun piece member => ?_, clean_summaryPieces _⟩
      obtain ⟨file, known, inside⟩ := List.mem_flatMap.mp member
      exact clean_filePieces (clean file known) piece inside
  have plainly : escape ∉ (terminal false files).toList := by
    rw [terminal, String.toList_ofList]
    intro member
    obtain ⟨piece, known, inside⟩ := List.mem_flatMap.mp member
    exact all piece known inside
  rw [withoutSequences_terminal, withoutSequences_of_clean plainly]

/-- Names that look like the ends of sequences, and a content that holds a whole one. -/
theorem colours_only_decorate_of_brackets :
    let related : RelatedFile := ⟨"[0m", .test, "", "[31"⟩
    let files : List ChangedFile :=
      [{ filename := "[31", status := .modified, fullContent := some "\x1b[1mbill", strategy := some .dependencyAware,
         dependencies := some ⟨[related]⟩, degradation := some "1;2m" }]
    (∀ file ∈ files, ∀ text ∈ shownTexts file, escape ∉ text.toList) ∧
      withoutSequences (terminal true files).toList = (terminal false files).toList ∧
      terminal true files ≠ terminal false files := by
  intro related files
  have clean : ∀ file ∈ files, ∀ text ∈ shownTexts file, escape ∉ text.toList := by decide
  exact ⟨clean, colours_only_decorate clean, by decide +kernel⟩

end ReviewContext.Report

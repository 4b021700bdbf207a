import Mathlib.Data.List.Forall2
import ReviewContext.Proofs.Source.Ends
import ReviewContext.Proofs.Text.Rows

/-! # Stripping keeps the lines

Without its comments a source has the lines that it had: each has lost characters or got blanks, and nothing has
come from another line. What is left of a token is related to the token in that way, however the token ends, and
the relation carries over from the tokens to the source.
-/

namespace ReviewContext

namespace Source

open Token

/-- `left` is `whole` after characters that are no newlines were taken out and blanks were put in. -/
inductive Thinned : (left whole : List Char) → Prop
  | nil : Thinned [] []
  | keep (c : Char) {left whole : List Char} (tail : Thinned left whole) : Thinned (c :: left) (c :: whole)
  | drop {c : Char} {left whole : List Char} (inLine : c ≠ '\n') (tail : Thinned left whole) :
      Thinned left (c :: whole)
  | blank {left whole : List Char} (tail : Thinned left whole) : Thinned (' ' :: left) whole

namespace Thinned

variable {left whole : List Char}

private theorem refl (whole : List Char) : Thinned whole whole := by
  induction whole with
  | nil => exact .nil
  | cons c whole ih => exact .keep c ih

private theorem newlines (whole : List Char) : Thinned (newlines whole) whole := by
  induction whole with
  | nil => exact .nil
  | cons c whole ih =>
    by_cases newline : c = '\n'
    · subst newline
      exact .keep '\n' ih
    · rw [Token.newlines, List.filter_cons_of_neg (by simpa using newline)]
      exact .drop newline ih

private theorem append {left' whole' : List Char} (front : Thinned left whole) (back : Thinned left' whole') :
    Thinned (left ++ left') (whole ++ whole') := by
  induction front with
  | nil => exact back
  | keep c tail ih => exact .keep c ih
  | drop inLine tail ih => exact .drop inLine ih
  | blank tail ih => exact .blank ih

private theorem count_newline (thinned : Thinned left whole) : left.count '\n' = whole.count '\n' := by
  induction thinned with
  | nil => rfl
  | keep c tail ih => rw [List.count_cons, List.count_cons, ih]
  | drop inLine tail ih => rw [ih, List.count_cons_of_ne inLine]
  | blank tail ih => rw [List.count_cons_of_ne (by decide), ih]

/-- Line by line nothing has come in but blanks. -/
theorem lines (thinned : Thinned left whole) :
    List.Forall₂ (fun line other => (line.filter (· != ' ')).Sublist (other.filter (· != ' ')))
      (Text.splitOn '\n' left) (Text.splitOn '\n' whole) := by
  induction thinned with
  | nil => exact .cons (List.Sublist.refl _) .nil
  | @keep c left whole tail ih =>
    by_cases newline : c = '\n'
    · subst newline
      rw [Text.splitOn_separator, Text.splitOn_separator]
      exact .cons (List.Sublist.refl _) ih
    · obtain ⟨line, lines, split, split_cons⟩ := Text.exists_splitOn_cons newline left
      obtain ⟨other, others, split', split_cons'⟩ := Text.exists_splitOn_cons newline whole
      rw [split, split', List.forall₂_cons] at ih
      rw [split_cons, split_cons', List.forall₂_cons, List.filter_cons, List.filter_cons]
      refine ⟨?_, ih.2⟩
      split
      · exact ih.1.cons_cons c
      · exact ih.1
  | @drop c left whole inLine tail ih =>
    obtain ⟨other, others, split, split_cons⟩ := Text.exists_splitOn_cons inLine whole
    rw [split, List.forall₂_cons_right_iff] at ih
    obtain ⟨line, lines, line_le, lines_le, same⟩ := ih
    rw [same, split_cons]
    exact .cons (line_le.trans ((List.sublist_cons_self c other).filter _)) lines_le
  | @blank left whole tail ih =>
    have solid : ' ' ≠ '\n' := by decide
    obtain ⟨line, lines, split, split_cons⟩ := Text.exists_splitOn_cons solid left
    rw [split, List.forall₂_cons_left_iff] at ih
    obtain ⟨other, others, line_le, lines_le, same⟩ := ih
    rw [same, split_cons]
    exact .cons (by simpa using line_le) lines_le

end Thinned

/-- What is left of a token keeps the lines of the token, however it ends. -/
theorem Token.kept_thinned (token : Token) : Thinned token.kept token.text := by
  cases token with
  | code c => exact .refl [c]
  | literal cs => exact .refl cs
  | lineComment cs => exact .newlines cs
  | blockComment cs => exact .blank (.newlines cs)
  | docstring cs => exact .newlines cs

private theorem strip_thinned (style : CommentStyle) (source : List Char) :
    Thinned (strip style source).text source := by
  have each (found : List Token) : Thinned (found.flatMap kept) (found.flatMap Token.text) := by
    induction found with
    | nil => exact .nil
    | cons token found ih => exact token.kept_thinned.append ih
  have all := each (tokens style source)
  rwa [tokens, ← cut, flatMap_text] at all

/-- A source without its comments has as many newlines as the source, and blanks apart each of its lines is made of
characters of the same line of the source, in their order. -/
theorem strip_keeps_lines (style : CommentStyle) (source : List Char) :
    (strip style source).text.count '\n' = source.count '\n' ∧
      List.Forall₂ (fun line other => (line.filter (· != ' ')).Sublist (other.filter (· != ' ')))
        (Text.splitOn '\n' (strip style source).text) (Text.splitOn '\n' source) :=
  ⟨(strip_thinned style source).count_newline, (strip_thinned style source).lines⟩

end Source

end ReviewContext

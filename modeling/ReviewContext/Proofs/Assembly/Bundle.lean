import ReviewContext.Proofs.Assembly.Tape

/-! # What a bundle is drawn from

Whichever file a bundle belongs to, each of its entries is the excerpt of a file that was found for some
file of the change. Gathering, offering and drawing choose among what was found and add nothing to it.
-/

namespace ReviewContext

/-- A related file with as much of its content as a bundle keeps. -/
def RelatedFile.excerpt (settings : Settings) (related : RelatedFile) : RelatedFile :=
  { related with content := Excerpt.ofContent settings.maxCharsPerFile related.content }

namespace Assembly

variable {settings : Settings} {related : RelatedFile}

private theorem mem_of_gathered {all seen : List RelatedFile}
    (member : related ∈ all.foldl
      (fun seen file => if seen.any (·.filename == file.filename) then seen else file :: seen) seen) :
    related ∈ seen ∨ related ∈ all := by
  induction all generalizing seen with
  | nil => exact .inl member
  | cons file rest ih =>
    rw [List.foldl_cons] at member
    rcases ih member with old | later
    · split at old
      · exact .inl old
      · rcases List.mem_cons.mp old with rfl | older
        · exact .inr List.mem_cons_self
        · exact .inl older
    · exact .inr (List.mem_cons_of_mem _ later)

/-- The pool holds nothing that was not found for some file. -/
theorem mem_of_mem_pool {found : List (List RelatedFile)} (member : related ∈ pool found) :
    ∃ one ∈ found, related ∈ one := by
  rw [pool, List.mem_reverse] at member
  rcases mem_of_gathered member with seen | gathered
  · exact absurd seen List.not_mem_nil
  · exact List.mem_flatten.mp gathered

private theorem mem_of_mem_offered {own : List String} {pool : List RelatedFile}
    (member : related ∈ offered own pool) : related ∈ pool := by
  rcases List.mem_append.mp member with named | other
  · obtain ⟨name, _, found⟩ := List.mem_filterMap.mp named
    exact List.mem_of_find?_eq_some found
  · exact (List.mem_filter.mp other).1

/-- Nothing is drawn but excerpts of offered files, in their order, and never of the file itself. -/
theorem draw_sublist (settings : Settings) (filename : String) (dependents tests : Nat)
    (offered : List RelatedFile) :
    (draw settings filename dependents tests offered).Sublist
      ((offered.filter (·.filename != filename)).map (·.excerpt settings)) := by
  fun_induction draw settings filename dependents tests offered with
  | case1 => exact .slnil
  | case2 => exact List.nil_sublist _
  | case3 dependents tests file rest room own ih =>
    simpa only [List.filter_cons, bne, own, Bool.not_true, Bool.false_eq_true, if_false] using ih
  | case4 dependents tests file rest room other kind full ih =>
    simp only [List.filter_cons, bne, other, Bool.not_false, if_true, List.map_cons]
    exact ih.cons _
  | case5 dependents tests file rest room other excerpt kind place ih =>
    simp only [List.filter_cons, bne, other, Bool.not_false, if_true, List.map_cons]
    exact ih.cons_cons _
  | case6 dependents tests file rest room other kind full ih =>
    simp only [List.filter_cons, bne, other, Bool.not_false, if_true, List.map_cons]
    exact ih.cons _
  | case7 dependents tests file rest room other excerpt kind place ih =>
    simp only [List.filter_cons, bne, other, Bool.not_false, if_true, List.map_cons]
    exact ih.cons_cons _

/-- An entry of a bundle is the excerpt of an entry of the pool, and never the file itself. -/
theorem exists_of_mem_bundle {filename : String} {found pool : List RelatedFile}
    (member : related ∈ (bundle settings filename found pool).relatedFiles) :
    ∃ whole ∈ pool, whole.filename ≠ filename ∧ related = whole.excerpt settings := by
  have drawn := (draw_sublist settings filename 0 0 _).subset member
  obtain ⟨whole, kept, rfl⟩ := List.mem_map.mp drawn
  obtain ⟨offered, other⟩ := List.mem_filter.mp kept
  exact ⟨whole, mem_of_mem_offered offered, by simpa using other, rfl⟩

end Assembly

end ReviewContext

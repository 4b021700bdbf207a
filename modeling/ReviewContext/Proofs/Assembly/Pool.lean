import Mathlib.Data.List.Nodup
import Mathlib.Data.List.Perm.Subperm
import ReviewContext.Proofs.Assembly.Bundle

/-! # The pool of a change

What was found for the files of a change is put together, one file after the other, and of entries with the
same name the first stays. A file is offered the entries that were found for it before all others, and
whatever is in the pool is offered once, the file itself apart.
-/

namespace ReviewContext

def RelatedFile.sameName (file other : RelatedFile) : Bool :=
  file.filename == other.filename

@[simp] theorem RelatedFile.sameName_iff {file other : RelatedFile} :
    file.sameName other = true ↔ file.filename = other.filename :=
  beq_iff_eq

/-- No two entries are for the same file. -/
def Named (files : List RelatedFile) : Prop :=
  (files.map (·.filename)).Nodup

/-- Where each name has one entry, a name settles the entry. -/
theorem Named.eq {files : List RelatedFile} {file other : RelatedFile} (named : Named files)
    (member : file ∈ files) (known : other ∈ files) (same : file.filename = other.filename) : file = other :=
  List.inj_on_of_nodup_map named member known same

namespace Assembly

open RelatedFile

/-- Of entries with the same name the pool keeps the first. -/
theorem pool_eq_eraseDupsBy (found : List (List RelatedFile)) :
    pool found = found.flatten.eraseDupsBy sameName := by
  have folded (all seen : List RelatedFile) :
      (all.foldl (fun seen file => if seen.any (·.filename == file.filename) then seen else file :: seen)
        seen).reverse = List.eraseDupsBy.loop sameName all seen := by
    induction all generalizing seen with
    | nil => rfl
    | cons file rest ih =>
      rw [List.foldl_cons, ih, List.eraseDupsBy.loop]
      have same : seen.any (·.filename == file.filename) = seen.any (sameName file) := by
        simp only [BEq.comm]
        rfl
      rw [same]
      cases seen.any (sameName file) <;> rfl
  exact folded _ []

theorem mem_of_mem_eraseDupsBy {related : RelatedFile} :
    ∀ {files : List RelatedFile}, related ∈ files.eraseDupsBy sameName → related ∈ files
  | [], member => member
  | file :: rest, member => by
    rw [List.eraseDupsBy_cons] at member
    rcases List.mem_cons.mp member with rfl | later
    · exact List.mem_cons_self
    · exact List.mem_cons_of_mem _ (List.mem_filter.mp (mem_of_mem_eraseDupsBy later)).1
termination_by files => files.length
decreasing_by exact Nat.lt_succ_of_le (List.length_filter_le _ _)

/-- Erasing what has the name of an earlier entry leaves one entry for each name. -/
theorem eraseDupsBy_named : ∀ files : List RelatedFile, Named (files.eraseDupsBy sameName)
  | [] => List.nodup_nil
  | file :: rest => by
    rw [List.eraseDupsBy_cons]
    refine List.nodup_cons.mpr ⟨fun member => ?_, eraseDupsBy_named _⟩
    obtain ⟨other, kept, same⟩ := List.mem_map.mp member
    have differs := (List.mem_filter.mp (mem_of_mem_eraseDupsBy kept)).2
    simp [sameName, same] at differs
termination_by files => files.length
decreasing_by exact Nat.lt_succ_of_le (List.length_filter_le _ _)

/-- No name is lost. -/
theorem exists_mem_eraseDupsBy {related : RelatedFile} :
    ∀ {files : List RelatedFile}, related ∈ files →
      ∃ kept ∈ files.eraseDupsBy sameName, kept.filename = related.filename
  | file :: rest, member => by
    rw [List.eraseDupsBy_cons]
    by_cases same : related.filename = file.filename
    · exact ⟨file, List.mem_cons_self, same.symm⟩
    have later : related ∈ rest := (List.mem_cons.mp member).resolve_left fun equal => same (by rw [equal])
    have other : related ∈ rest.filter fun other => other.sameName file = false :=
      List.mem_filter.mpr ⟨later, by simpa [sameName] using same⟩
    obtain ⟨kept, held, named⟩ := exists_mem_eraseDupsBy other
    exact ⟨kept, List.mem_cons_of_mem _ held, named⟩
termination_by files => files.length
decreasing_by exact Nat.lt_succ_of_le (List.length_filter_le _ _)

/-- What stays is the first with its name. -/
theorem find?_of_mem_eraseDupsBy {entry : RelatedFile} : ∀ {files : List RelatedFile},
    entry ∈ files.eraseDupsBy sameName → files.find? (sameName entry) = some entry
  | file :: rest, member => by
    rw [List.eraseDupsBy_cons] at member
    rcases List.mem_cons.mp member with rfl | later
    · exact List.find?_cons_of_pos (sameName_iff.mpr rfl)
    have first := find?_of_mem_eraseDupsBy later
    have apart : entry.sameName file = false := of_decide_eq_true (List.mem_filter.mp (mem_of_mem_eraseDupsBy later)).2
    rw [List.find?_cons_of_neg (by simp [apart]), ← first, List.find?_filter]
    congr 1
    funext other
    rw [Bool.eq_iff_iff, decide_eq_true_eq, decide_eq_true_eq]
    -- An entry that is left out in between has the name of `file`, not the one that is sought.
    refine (and_iff_right_of_imp fun same => ?_).symm
    rw [← apart, sameName, sameName, sameName_iff.mp same]
termination_by files => files.length
decreasing_by exact Nat.lt_succ_of_le (List.length_filter_le _ _)

private theorem map_filename_eraseDupsBy : ∀ files : List RelatedFile,
    (files.eraseDupsBy sameName).map (·.filename) = (files.map (·.filename)).eraseDups
  | [] => rfl
  | file :: rest => by
    rw [List.eraseDupsBy_cons, List.map_cons, List.map_cons, List.eraseDups_cons,
      map_filename_eraseDupsBy, List.filter_map]
    have same : (fun other : RelatedFile => decide (other.sameName file = false)) =
        (fun name => !name == file.filename) ∘ (·.filename) := by
      funext other
      rw [Bool.eq_iff_iff]
      simp [sameName]
    rw [same]
termination_by files => files.length
decreasing_by exact Nat.lt_succ_of_le (List.length_filter_le _ _)

/-- A pool has one entry for each name. -/
theorem pool_named (found : List (List RelatedFile)) : Named (pool found) := by
  rw [pool_eq_eraseDupsBy]
  exact eraseDupsBy_named _

theorem eraseDupsBy_length_le (files : List RelatedFile) : (files.eraseDupsBy sameName).length ≤ files.length :=
  (List.subperm_of_subset (eraseDupsBy_named files).of_map fun _ => mem_of_mem_eraseDupsBy).length_le

/-- The entries of the pool under the names of `own`, in the order of `own`. -/
def pooled (own pool : List RelatedFile) : List RelatedFile :=
  (own.eraseDupsBy sameName).filterMap fun file => pool.find? (sameName file)

/-- The whole pool, with the entries for `own` in front. -/
def ranked (own pool : List RelatedFile) : List RelatedFile :=
  pooled own pool ++ pool.filter fun file => !own.any (sameName file)

/-- What is offered for a bundle is the pool with the entries for its own file in front. -/
theorem offered_eq_ranked (own pool : List RelatedFile) :
    offered (Text.distinct (own.map (·.filename))) pool = ranked own pool := by
  have named (file : RelatedFile) :
      (own.map (·.filename)).eraseDups.contains file.filename = own.any (sameName file) := by
    rw [Bool.eq_iff_iff, List.contains_iff_mem, List.mem_eraseDups, List.mem_map, List.any_eq_true]
    simp only [sameName_iff, @eq_comm _ file.filename]
  have sought (name : String) : pool.find? (·.filename == name) = pool.find? (name == ·.filename) := by
    simp only [BEq.comm]
  rw [Text.distinct_eq_eraseDups, offered, ranked]
  simp only [named, sought]
  rw [← map_filename_eraseDupsBy, List.filterMap_map]
  rfl

section Ranked

variable {own pool : List RelatedFile} {related : RelatedFile}

/-- The entries for a file stand in the order in which its related files were found. -/
theorem pooled_names (own pool : List RelatedFile) :
    ((pooled own pool).map (·.filename)).Sublist ((own.eraseDupsBy sameName).map (·.filename)) := by
  unfold pooled
  induction own.eraseDupsBy sameName with
  | nil => exact .slnil
  | cons file rest ih =>
    cases sought : pool.find? (sameName file) with
    | none =>
      rw [List.filterMap_cons, sought]
      exact ih.cons _
    | some other =>
      have same : file.filename = other.filename := sameName_iff.mp (List.find?_some sought)
      rw [List.filterMap_cons, sought, List.map_cons, List.map_cons, same]
      exact ih.cons_cons _

/-- The entries for a file are those of the pool that have a name found for it. -/
theorem mem_pooled (named : Named pool) :
    related ∈ pooled own pool ↔ related ∈ pool ∧ ∃ file ∈ own, file.filename = related.filename := by
  rw [pooled, List.mem_filterMap]
  constructor
  · rintro ⟨file, kept, sought⟩
    exact ⟨List.mem_of_find?_eq_some sought, file, mem_of_mem_eraseDupsBy kept,
      sameName_iff.mp (List.find?_some sought)⟩
  · rintro ⟨member, file, known, same⟩
    obtain ⟨kept, held, keptSame⟩ := exists_mem_eraseDupsBy known
    have hit : kept.sameName related = true := sameName_iff.mpr (keptSame.trans same)
    obtain ⟨other, sought⟩ := Option.isSome_iff_exists.mp (List.find?_isSome.mpr ⟨related, member, hit⟩)
    refine ⟨kept, held, sought.trans (congrArg some ?_)⟩
    exact named.eq (List.mem_of_find?_eq_some sought) member
      ((sameName_iff.mp (List.find?_some sought)).symm.trans (sameName_iff.mp hit))

/-- Everything in the pool is offered. -/
theorem mem_ranked (named : Named pool) : related ∈ ranked own pool ↔ related ∈ pool := by
  rw [ranked, List.mem_append, mem_pooled named, List.mem_filter]
  simp only [Bool.not_eq_true', List.any_eq_false, sameName_iff]
  constructor
  · rintro (⟨member, _⟩ | ⟨member, _⟩) <;> exact member
  · intro member
    by_cases known : ∃ file ∈ own, file.filename = related.filename
    · exact .inl ⟨member, known⟩
    · exact .inr ⟨member, fun file listed same => known ⟨file, listed, same.symm⟩⟩

/-- Nothing is offered twice. -/
theorem ranked_named (named : Named pool) : Named (ranked own pool) := by
  unfold Named ranked
  rw [List.map_append]
  refine List.Nodup.append ((pooled_names own pool).nodup (eraseDupsBy_named own))
    ((List.filter_sublist.map _).nodup named) ?_
  intro name mine others
  obtain ⟨entry, ours, rfl⟩ := List.mem_map.mp mine
  obtain ⟨other, theirs, same⟩ := List.mem_map.mp others
  obtain ⟨_, file, listed, known⟩ := (mem_pooled named).mp ours
  have absent := (List.mem_filter.mp theirs).2
  simp only [Bool.not_eq_true', List.any_eq_false, sameName_iff] at absent
  exact absent file listed (same.trans known.symm)

theorem ranked_length_le (own : List RelatedFile) (named : Named pool) : (ranked own pool).length ≤ pool.length :=
  (List.subperm_of_subset (ranked_named named).of_map fun _ member => (mem_ranked named).mp member).length_le

end Ranked

end Assembly
end ReviewContext

import ReviewContext.Host.Memory
import ReviewContext.Proofs.Assembly.Alike
import ReviewContext.Proofs.Assembly.Selection

/-! # What the files of a change share

A completed pass with related files is a fetch of the bodies, a discovery for each file that has content, one
after the other, and a bundle for each of them drawn from all that was found. What a file's bundle holds is
settled by its own discovery and the pool alone. The pool keeps one entry for a name, with the relationship
under which it was found first, and it is under this relationship that the entry counts in every bundle.
-/

namespace ReviewContext.Assembly

open RelatedFile

variable {σ : Type} (host : Host σ) (settings : Settings) (ref : RepositoryRef)

/-- The discoveries of a pass in their order: what each of them returned, and the worlds between. -/
inductive Discovering : World σ → List ChangedFile → List (List RelatedFile) → World σ → Prop
  | done {world : World σ} : Discovering world [] [] world
  | passed {world after : World σ} {file : ChangedFile} {files : List ChangedFile}
      {found : List (List RelatedFile)} (bare : file.fullContent = none)
      (tail : Discovering world files found after) : Discovering world (file :: files) ([] :: found) after
  | searched {world middle after : World σ} {file : ChangedFile} {files : List ChangedFile} {content : String}
      {own : List RelatedFile} {found : List (List RelatedFile)} (body : file.fullContent = some content)
      (returned : Discovery.discover host settings ref file.filename content world = (.ok own, middle))
      (tail : Discovering middle files found after) : Discovering world (file :: files) (own :: found) after

variable {host settings ref} {world middle after : World σ} {files enriched out : List ChangedFile}
  {found : List (List RelatedFile)}

theorem ofRun_eq_ok {α : Type} {run : Run σ α} {reason : AccessError → DegradationReason} {a : α}
    (went : Pass.ofRun reason run world = (.ok a, after)) : run world = (.ok a, after) := by
  unfold Pass.ofRun at went
  generalize run world = outcome at went ⊢
  obtain ⟨e | b, other⟩ := outcome
  · cases went
  · cases went
    rfl

private theorem discovering (went : discoverEach host settings ref files world = (.ok found, after)) :
    Discovering host settings ref world files found after := by
  induction files generalizing world found with
  | nil =>
    cases went
    exact .done
  | cons file rest ih =>
    rw [discoverEach_cons] at went
    obtain ⟨own, middle, first, went⟩ := bind_eq_ok_iff.mp went
    obtain ⟨others, last, tail, ended⟩ := bind_eq_ok_iff.mp went
    cases ended
    cases body : file.fullContent with
    | some content =>
      simp only [discoverFor, body] at first
      exact .searched body (ofRun_eq_ok first) (ih tail)
    | none =>
      simp only [discoverFor, body] at first
      cases first
      exact .passed body (ih tail)

private theorem Discovering.limited (discovering : Discovering host settings ref world files found after) :
    List.Forall₂ (fun file own => Discovery.Limited settings file.filename own) files found := by
  induction discovering with
  | done => exact .nil
  | passed bare tail ih => exact .cons ⟨fun _ => Nat.zero_le _, fun _ member => nomatch member⟩ ih
  | searched body returned tail ih =>
    exact .cons (Discovery.discover_returns host settings ref _ _ _ _ _ returned) ih

/-- The parts of a completed pass. -/
theorem run_related (completed : run host settings ref .dependencyAware files world = (.ok out, after)) :
    ∃ enriched middle found, fullFiles host settings ref files world = (.ok enriched, middle) ∧
      discoverEach host settings ref enriched middle = (.ok found, after) ∧
      out = List.zipWith (withBundle settings (pool found)) enriched found := by
  obtain ⟨enriched, middle, fetched, went⟩ := bind_eq_ok_iff.mp completed
  obtain ⟨found, last, searched, ended⟩ := bind_eq_ok_iff.mp went
  cases ended
  exact ⟨enriched, middle, found, fetched, searched, rfl⟩

/-- At most this many files can be found for a change, so that they can be counted. -/
theorem Discovering.length_le (discovering : Discovering host settings ref world files found after) :
    found.flatten.length ≤ files.length * (settings.maxDependents + settings.maxTests) := by
  have limited := discovering.limited
  clear discovering
  induction limited with
  | nil => exact Nat.zero_le _
  | @cons file own files found first tail ih =>
    have kinds := List.length_eq_length_filter_add (l := own) (·.relationship = .dependent)
    have tests : own.filter (fun related => !decide (related.relationship = .dependent)) =
        own.filter (·.relationship = .test) :=
      List.filter_congr fun related _ => by cases related.relationship <;> rfl
    have dependentsFew := first.few .dependent
    have testsFew := first.few .test
    rw [tests] at kinds
    rw [List.flatten_cons, List.length_append, List.length_cons, Nat.add_one_mul]
    simp only [Settings.cap] at dependentsFew testsFew
    omega

section Bundles

/-- What becomes of a file for which `own` was found, when all that was found is in the pool. -/
structure Bundled (settings : Settings) (pool : List RelatedFile) (searched : ChangedFile × List RelatedFile)
    (out : ChangedFile) : Prop where
  bare : searched.1.fullContent = none → out = searched.1
  drawn : searched.1.fullContent.isSome = true →
    ∃ bundle, DrawnFrom settings searched.1.filename searched.2 pool bundle ∧
      out = { searched.1 with strategy := some .dependencyAware, dependencies := some bundle }

private theorem forall₂_zip_zipWith {α β γ : Type} {as : List α} {bs : List β} {P : α → β → Prop}
    {T : α × β → γ → Prop} {combine : α → β → γ} (pairs : List.Forall₂ P as bs)
    (step : ∀ a, ∀ b ∈ bs, P a b → T (a, b) (combine a b)) :
    List.Forall₂ T (as.zip bs) (List.zipWith combine as bs) := by
  induction pairs with
  | nil => exact .nil
  | cons first tail ih =>
    exact .cons (step _ _ List.mem_cons_self first) (ih fun a b member => step a b (List.mem_cons_of_mem _ member))

private theorem withBundle_bundled {pool own : List RelatedFile} (file : ChangedFile) (named : Named pool)
    (countable : pool.length ≤ Text.maxWord) :
    Bundled settings pool (file, own) (withBundle settings pool file own) where
  bare absent := withBundle_of_no_content absent
  drawn body := by
    obtain ⟨content, body⟩ := Option.isSome_iff_exists.mp body
    exact ⟨_, bundle_drawnFrom settings file.filename own named countable, withBundle_of_content body⟩

/-- Every bundle is what its own discovery and the pool determine: the first entries of each relationship,
as many as the limits admit, and nothing that there was room for is left out. -/
theorem bundles_drawn_from_pool {σ : Type} (host : Host σ) (settings : Settings) (ref : RepositoryRef)
    (files out : List ChangedFile) (world after : World σ)
    (completed : run host settings ref .dependencyAware files world = (.ok out, after)) :
    ∃ enriched middle found, fullFiles host settings ref files world = (.ok enriched, middle) ∧
      Discovering host settings ref middle enriched found after ∧
      ((found.flatten.eraseDupsBy sameName).length ≤ Text.maxWord →
        List.Forall₂ (Bundled settings (found.flatten.eraseDupsBy sameName)) (enriched.zip found) out) := by
  obtain ⟨enriched, middle, found, fetched, searched, rfl⟩ := run_related completed
  have searched := discovering searched
  refine ⟨enriched, middle, found, fetched, searched, fun countable => ?_⟩
  rw [← pool_eq_eraseDupsBy] at countable ⊢
  exact forall₂_zip_zipWith searched.limited fun file own _ _ =>
    withBundle_bundled file (pool_named found) countable

private theorem fullFiles_length_le (fetched : fullFiles host settings ref files world = (.ok enriched, middle)) :
    enriched.length ≤ files.length := by
  unfold fullFiles at fetched
  dsimp only at fetched
  split at fetched
  · cases fetched
  · cases fetched
    rw [List.length_zipWith]
    exact Nat.min_le_left _ _

/-- Two files, and a third that is a dependent of the first and the test of the second. -/
def sharingWorld : World MemoryRepository :=
  ⟨⟨[("a.js", "export class A {}"), ("b.js", "export class B {}"), ("b.test.js", "import './a' b"),
    ("y.js", "import './b'")], [], [], []⟩, 0⟩

/-- The change of the two files. -/
def sharingFiles : List ChangedFile :=
  [{ filename := "a.js", status := .modified }, { filename := "b.js", status := .modified }]

/-- Room for one file of either kind. -/
def oneOfEach : Settings :=
  { maxDependents := 1, maxTests := 1 }

def tillRef : RepositoryRef :=
  ⟨"shop", "till", "main"⟩

private theorem run_sharers :
    ∃ out after,
      run MemoryRepository.host oneOfEach tillRef .dependencyAware sharingFiles sharingWorld = (.ok out, after) ∧
      (out.map fun file => file.dependencies.map Bundle.names) = [some ["b.test.js"], some ["y.js"]] := by
  have names : (run MemoryRepository.host oneOfEach tillRef .dependencyAware sharingFiles sharingWorld).1.toOption.map
      (·.map fun file => file.dependencies.map Bundle.names) = some [some ["b.test.js"], some ["y.js"]] := by
    decide +kernel
  generalize run MemoryRepository.host oneOfEach tillRef .dependencyAware sharingFiles sharingWorld = outcome at names ⊢
  obtain ⟨_ | out, after⟩ := outcome
  · cases names
  · exact ⟨out, after, rfl, Option.some.inj names⟩

private theorem sharers_countable {middle after : World MemoryRepository}
    (fetched : fullFiles MemoryRepository.host oneOfEach tillRef sharingFiles sharingWorld = (.ok enriched, middle))
    (searched : Discovering MemoryRepository.host oneOfEach tillRef middle enriched found after) :
    (found.flatten.eraseDupsBy sameName).length ≤ Text.maxWord := by
  have few : enriched.length ≤ 2 := fullFiles_length_le fetched
  have all : found.flatten.length ≤ enriched.length * 2 := searched.length_le
  have kept := eraseDupsBy_length_le found.flatten
  have room : 4 ≤ Text.maxWord := by decide
  omega

/-- The shared file is bundled as a dependent of the first. For the second it would be a dependent too many. -/
theorem bundles_drawn_from_pool_of_sharers :
    ∃ out after,
      run MemoryRepository.host oneOfEach tillRef .dependencyAware sharingFiles sharingWorld = (.ok out, after) ∧
      (out.map fun file => file.dependencies.map Bundle.names) = [some ["b.test.js"], some ["y.js"]] ∧
      ∃ enriched middle found,
        fullFiles MemoryRepository.host oneOfEach tillRef sharingFiles sharingWorld = (.ok enriched, middle) ∧
        Discovering MemoryRepository.host oneOfEach tillRef middle enriched found after ∧
        (found.flatten.eraseDupsBy sameName).length ≤ Text.maxWord ∧
        List.Forall₂ (Bundled oneOfEach (found.flatten.eraseDupsBy sameName)) (enriched.zip found) out := by
  obtain ⟨out, after, completed, names⟩ := run_sharers
  obtain ⟨enriched, middle, found, fetched, searched, bundled⟩ :=
    bundles_drawn_from_pool MemoryRepository.host oneOfEach tillRef sharingFiles out sharingWorld after completed
  have countable := sharers_countable fetched searched
  exact ⟨out, after, completed, names, enriched, middle, found, fetched, searched, countable, bundled countable⟩

/-- The pool holds what was found for a file under relationships that it was found with for this file. -/
def Agree (own pool : List RelatedFile) : Prop :=
  ∀ entry ∈ pooled own pool, ∃ related ∈ own,
    related.filename = entry.filename ∧ related.relationship = entry.relationship

/-- If the pool agrees with what was found for a file, the caps of the discovery hold for its entries as well. -/
theorem pooled_few {own pool : List RelatedFile} {filename : String}
    (limited : Discovery.Limited settings filename own) (agree : Agree own pool) (kind : Relationship) :
    ((pooled own pool).filter (·.relationship = kind)).length ≤ settings.cap kind := by
  have distinct : Named (pooled own pool) := (pooled_names own pool).nodup (eraseDupsBy_named own)
  have same : ((pooled own pool).filter (·.relationship = kind)).map (·.filename) ⊆
      (own.filter (·.relationship = kind)).map (·.filename) := by
    intro name member
    obtain ⟨entry, held, rfl⟩ := List.mem_map.mp member
    obtain ⟨held, ofKind⟩ := List.mem_filter.mp held
    obtain ⟨related, known, name, relationship⟩ := agree entry held
    refine List.mem_map.mpr ⟨related, List.mem_filter.mpr ⟨known, ?_⟩, name⟩
    rw [relationship]
    exact ofKind
  have fewer := (List.subperm_of_subset ((List.filter_sublist.map _).nodup distinct) same).length_le
  rw [List.length_map, List.length_map] at fewer
  exact Nat.le_trans fewer (limited.few kind)

/-- Wherever an earlier discovery found one of these files, it did so under a relationship that it has here too. -/
def Undisputed (earlier : List (List RelatedFile)) (own : List RelatedFile) : Prop :=
  ∀ other ∈ earlier.flatten, other.filename ∈ own.map (·.filename) →
    ∃ related ∈ own, related.filename = other.filename ∧ related.relationship = other.relationship

/-- The pool has an entry from the first discovery that found the file, which is an earlier one or this. -/
theorem agree_of_undisputed {earlier later : List (List RelatedFile)} {own : List RelatedFile}
    (undisputed : Undisputed earlier own) : Agree own (pool (earlier ++ own :: later)) := by
  intro entry held
  obtain ⟨kept, file, known, same⟩ := (mem_pooled (pool_named _)).mp held
  rw [pool_eq_eraseDupsBy, List.flatten_append, List.flatten_cons] at kept
  have first := find?_of_mem_eraseDupsBy kept
  rw [List.find?_append, List.find?_append] at first
  cases before : earlier.flatten.find? (sameName entry) with
  | some other =>
    rw [before, Option.some_or] at first
    cases first
    exact undisputed entry (List.mem_of_find?_eq_some before) (List.mem_map.mpr ⟨file, known, same⟩)
  | none =>
    have hit : entry.sameName file = true := sameName_iff.mpr same.symm
    obtain ⟨other, here⟩ := Option.isSome_iff_exists.mp (List.find?_isSome.mpr ⟨file, known, hit⟩)
    rw [before, here, Option.none_or, Option.some_or] at first
    cases first
    exact ⟨entry, List.mem_of_find?_eq_some here, rfl, rfl⟩

/-- What a file keeps of what was found for it. -/
structure Kept (settings : Settings) (pool : List RelatedFile) (searched : ChangedFile × List RelatedFile)
    (out : ChangedFile) : Prop where
  limited : Discovery.Limited settings searched.1.filename searched.2
  carried : searched.1.fullContent.isSome = true → ∃ bundle, out.dependencies = some bundle ∧
    (∀ related ∈ searched.2, related.filename ∈ bundle.names ↔
      related.filename ∈ (firsts settings.cap (pooled searched.2 pool)).map (·.filename)) ∧
    (Agree searched.2 pool → ∀ related ∈ searched.2, related.filename ∈ bundle.names)

/-- A file has everything that was found for it in its bundle. -/
def KeepsAll (searched : ChangedFile × List RelatedFile) (out : ChangedFile) : Prop :=
  searched.1.fullContent.isSome = true → ∃ bundle, out.dependencies = some bundle ∧
    ∀ related ∈ searched.2, related.filename ∈ bundle.names

private theorem own_mem_bundle_iff {own pool : List RelatedFile} {filename : String} (named : Named pool)
    (countable : pool.length ≤ Text.maxWord) (limited : Discovery.Limited settings filename own)
    {related : RelatedFile} (known : related ∈ own) :
    related.filename ∈ (bundle settings filename own pool).names ↔
      related.filename ∈ (firsts settings.cap (pooled own pool)).map (·.filename) := by
  have whole : (pooled own pool).filter (·.filename != filename) = pooled own pool := by
    refine List.filter_eq_self.mpr fun entry held => ?_
    obtain ⟨_, file, listed, same⟩ := (mem_pooled named).mp held
    simpa [same] using limited.other file listed
  rw [bundle_eq_firsts settings filename own named countable, excerpts_names, eligible, ranked,
    List.filter_append, whole, List.mem_map, List.mem_map]
  -- An entry with the name of a file that was found is not among the rest of the pool.
  have apart {entry : RelatedFile} (same : entry.filename = related.filename) :
      entry ∉ (pool.filter fun file => !own.any (sameName file)).filter (·.filename != filename) := by
    intro member
    have unknown := (List.mem_filter.mp (List.mem_filter.mp member).1).2
    simp only [Bool.not_eq_true', List.any_eq_false, sameName_iff] at unknown
    exact unknown related known same
  constructor
  · rintro ⟨entry, taken, same⟩
    exact ⟨entry, (mem_firsts_append (apart same)).mp taken, same⟩
  · rintro ⟨entry, taken, same⟩
    exact ⟨entry, (mem_firsts_append (apart same)).mpr taken, same⟩

private theorem exists_pooled {own : List RelatedFile} (held : own ∈ found) {related : RelatedFile}
    (known : related ∈ own) : ∃ entry ∈ pooled own (pool found), entry.filename = related.filename := by
  obtain ⟨entry, kept, same⟩ := exists_mem_eraseDupsBy (List.mem_flatten.mpr ⟨own, held, known⟩)
  rw [← pool_eq_eraseDupsBy] at kept
  exact ⟨entry, (mem_pooled (pool_named found)).mpr ⟨kept, related, known, same.symm⟩, same⟩

private theorem withBundle_kept {own : List RelatedFile} (file : ChangedFile) (held : own ∈ found)
    (countable : (pool found).length ≤ Text.maxWord) (limited : Discovery.Limited settings file.filename own) :
    Kept settings (pool found) (file, own) (withBundle settings (pool found) file own) := by
  refine ⟨limited, fun body => ?_⟩
  obtain ⟨content, body⟩ := Option.isSome_iff_exists.mp body
  rw [withBundle_of_content body]
  refine ⟨_, rfl, fun related known => own_mem_bundle_iff (pool_named found) countable limited known, ?_⟩
  intro agree related known
  obtain ⟨entry, kept, same⟩ := exists_pooled held known
  rw [own_mem_bundle_iff (pool_named found) countable limited known,
    firsts_eq_self (pooled_few limited agree)]
  exact List.mem_map.mpr ⟨entry, kept, same⟩

/-- Nothing is lost if no earlier discovery found a file of these with the other relationship. -/
theorem keepsAll_of_undisputed {outcomes : List ChangedFile} {i : Nat} {file last : ChangedFile}
    {own : List RelatedFile}
    (kept : List.Forall₂ (Kept settings (pool found)) (enriched.zip found) outcomes)
    (searched : (enriched.zip found)[i]? = some (file, own)) (became : outcomes[i]? = some last)
    (undisputed : Undisputed (found.take i) own) : KeepsAll (file, own) last := by
  obtain ⟨within, pair⟩ := List.getElem?_eq_some_iff.mp searched
  obtain ⟨withinToo, rfl⟩ := List.getElem?_eq_some_iff.mp became
  have here : Kept settings (pool found) (file, own) outcomes[i] := pair ▸ kept.get within withinToo
  have listed : found[i]? = some own := (List.getElem?_zip_eq_some.mp searched).2
  obtain ⟨inFound, same⟩ := List.getElem?_eq_some_iff.mp listed
  have split : found = found.take i ++ own :: found.drop (i + 1) := by
    rw [← same, ← List.drop_eq_getElem_cons inFound, List.take_append_drop]
  have agree : Agree own (pool found) := by
    rw [split]
    exact agree_of_undisputed undisputed
  intro body
  obtain ⟨bundle, carried, -, all⟩ := here.carried body
  exact ⟨bundle, carried, all agree⟩

/-- A file that was found for a changed file is in its bundle unless as many others that were found for it
stand in the pool, before it and with its relationship there, as the bundle may hold. So nothing is lost if no
earlier discovery found any of them with the other relationship. -/
theorem own_related_files_kept {σ : Type} (host : Host σ) (settings : Settings) (ref : RepositoryRef)
    (files out : List ChangedFile) (world after : World σ)
    (completed : run host settings ref .dependencyAware files world = (.ok out, after)) :
    ∃ enriched middle found, fullFiles host settings ref files world = (.ok enriched, middle) ∧
      Discovering host settings ref middle enriched found after ∧
      ((found.flatten.eraseDupsBy sameName).length ≤ Text.maxWord →
        List.Forall₂ (Kept settings (found.flatten.eraseDupsBy sameName)) (enriched.zip found) out ∧
          ∀ (i : Nat) (file last : ChangedFile) (own : List RelatedFile),
            (enriched.zip found)[i]? = some (file, own) → out[i]? = some last →
            Undisputed (found.take i) own → KeepsAll (file, own) last) := by
  obtain ⟨enriched, middle, found, fetched, searched, rfl⟩ := run_related completed
  have searched := discovering searched
  refine ⟨enriched, middle, found, fetched, searched, fun countable => ?_⟩
  rw [← pool_eq_eraseDupsBy] at countable ⊢
  have kept := forall₂_zip_zipWith searched.limited fun file own held limited =>
    withBundle_kept file held countable limited
  exact ⟨kept, fun i file last own paired became => keepsAll_of_undisputed kept paired became⟩

/-- Nothing was found before the first file, so all that was found for it is kept. -/
theorem own_related_files_kept_of_sharers :
    ∃ out after,
      run MemoryRepository.host oneOfEach tillRef .dependencyAware sharingFiles sharingWorld = (.ok out, after) ∧
      ∃ enriched middle found,
        fullFiles MemoryRepository.host oneOfEach tillRef sharingFiles sharingWorld = (.ok enriched, middle) ∧
        Discovering MemoryRepository.host oneOfEach tillRef middle enriched found after ∧
        (found.flatten.eraseDupsBy sameName).length ≤ Text.maxWord ∧
        List.Forall₂ (Kept oneOfEach (found.flatten.eraseDupsBy sameName)) (enriched.zip found) out ∧
        ∃ file last own, (enriched.zip found)[0]? = some (file, own) ∧ out[0]? = some last ∧
          Undisputed (found.take 0) own ∧ KeepsAll (file, own) last := by
  obtain ⟨out, after, completed, names⟩ := run_sharers
  obtain ⟨enriched, middle, found, fetched, searched, kept⟩ :=
    own_related_files_kept MemoryRepository.host oneOfEach tillRef sharingFiles out sharingWorld after completed
  have countable := sharers_countable fetched searched
  obtain ⟨each, undisputed⟩ := kept countable
  have length := each.length_eq
  obtain ⟨last, _, rfl⟩ := List.length_eq_two.mp (List.length_map _ ▸ congrArg List.length names)
  obtain ⟨⟨file, own⟩, _, pairs⟩ := List.length_eq_two.mp length
  have first : (enriched.zip found)[0]? = some (file, own) := by rw [pairs]; rfl
  have alone : Undisputed (found.take 0) own := fun other earlier => nomatch earlier
  exact ⟨_, after, completed, enriched, middle, found, fetched, searched, countable, each, file, last, own, first, rfl,
    alone, undisputed 0 file last own first rfl alone⟩

/-- The test of the second file was found first as a dependent of the other. It counts as one there too, where
the only place for a dependent is taken. -/
theorem shared_test_lost :
    ∃ out after enriched middle found,
      run MemoryRepository.host oneOfEach tillRef .dependencyAware sharingFiles sharingWorld = (.ok out, after) ∧
      fullFiles MemoryRepository.host oneOfEach tillRef sharingFiles sharingWorld = (.ok enriched, middle) ∧
      Discovering MemoryRepository.host oneOfEach tillRef middle enriched found after ∧
      ¬ List.Forall₂ KeepsAll (enriched.zip found) out := by
  have contents : (fullFiles MemoryRepository.host oneOfEach tillRef sharingFiles sharingWorld).1.toOption.map
      (·.map (·.fullContent.isSome)) = some [true, true] := by
    decide +kernel
  have finds : (discoverEach MemoryRepository.host oneOfEach tillRef
      ((fullFiles MemoryRepository.host oneOfEach tillRef sharingFiles sharingWorld).1.toOption.getD [])
      (fullFiles MemoryRepository.host oneOfEach tillRef sharingFiles sharingWorld).2).1.toOption.map
        (·.map (·.map (·.filename))) = some [["b.test.js"], ["y.js", "b.test.js"]] := by
    decide +kernel
  obtain ⟨out, after, completed, carried⟩ := run_sharers
  obtain ⟨enriched, middle, found, fetched, searched, _⟩ := run_related completed
  rw [fetched] at contents finds
  change (discoverEach MemoryRepository.host oneOfEach tillRef enriched middle).1.toOption.map _ = _ at finds
  rw [searched] at finds
  refine ⟨out, after, enriched, middle, found, completed, fetched, discovering searched, fun all => ?_⟩
  have flags : enriched.map (·.fullContent.isSome) = [true, true] := Option.some.inj contents
  have named : found.map (·.map (·.filename)) = [["b.test.js"], ["y.js", "b.test.js"]] := Option.some.inj finds
  obtain ⟨_, file, rfl⟩ := List.length_eq_two.mp (List.length_map _ ▸ congrArg List.length flags)
  obtain ⟨_, own, rfl⟩ := List.length_eq_two.mp (List.length_map _ ▸ congrArg List.length named)
  obtain ⟨_, last, rfl⟩ := List.length_eq_two.mp (List.length_map _ ▸ congrArg List.length carried)
  simp only [List.map_cons, List.map_nil, List.cons.injEq, and_true] at flags named carried
  obtain ⟨bundle, held, keeps⟩ := (List.forall₂_cons.mp (List.forall₂_cons.mp all).2).1 flags.2
  obtain ⟨related, known, lost⟩ := List.mem_map.mp (named.2 ▸ by decide : "b.test.js" ∈ own.map (·.filename))
  have kept : "b.test.js" ∈ bundle.names := lost ▸ keeps related known
  rw [held] at carried
  rw [Option.some.inj carried.2] at kept
  revert kept
  decide

end Bundles

end ReviewContext.Assembly

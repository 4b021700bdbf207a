import ReviewContext.Proofs.Discovery.Screening

/-! # What stands behind a related file

Whatever a search answers, a file is related to another only by what was fetched for it and by what its own
text shows. An account of a discovery says this together with two facts about its calls: it fetches nothing
that no search has offered, and it fails exactly if a call was refused. Accounts of two parts, one after the
other, add up to an account of the whole.
-/

namespace ReviewContext

/-- What the relation of a file to the changed file at `path` rests on, whose text is `content`. -/
structure RelatedFile.Verified (path content : String) (calls : List Call) (related : RelatedFile) :
    Prop where
  target : related.target = path
  other : related.filename ≠ path
  fetched : .fetch related.filename (.ok related.content) ∈ calls
  dependent : related.relationship = .dependent →
    (SourceRecord.parse related.filename related.content).importsBaseName (Path.baseName path) = true ∧
      Path.isVendored related.filename = false ∧ Language.ofPath related.filename ≠ .unknown ∧
      (SourceRecord.parse path content).exports ≠ []
  test : related.relationship = .test →
    Path.fileName related.filename ∈ TestName.candidates path ∧
      (Path.baseName path).toList <:+: related.content.toList ∧ TestName.looksLikeTest path = false

/-- More calls take nothing away from what a relation rests on. -/
theorem RelatedFile.Verified.mono {path content : String} {calls more : List Call}
    {related : RelatedFile} (verified : related.Verified path content calls) (kept : calls ⊆ more) :
    related.Verified path content more :=
  { verified with fetched := kept verified.fetched }

namespace Discovery

/-- Every fetch is of a hit of some search. -/
def Offered (calls : List Call) : Prop :=
  ∀ path ending, .fetch path ending ∈ calls →
    ∃ query limit hits, .search query limit (.ok hits) ∈ calls ∧ path ∈ hits

theorem Offered.nothing : Offered [] :=
  fun _ _ member => nomatch member

/-- Calls that come later may rest on hits that came before. -/
theorem Offered.append {calls more : List Call} (first : Offered calls) (next : Offered more) :
    Offered (calls ++ more) := by
  intro path ending member
  rcases List.mem_append.mp member with early | late
  · obtain ⟨query, limit, hits, searched, hit⟩ := first path ending early
    exact ⟨query, limit, hits, List.mem_append_left _ searched, hit⟩
  · obtain ⟨query, limit, hits, searched, hit⟩ := next path ending late
    exact ⟨query, limit, hits, List.mem_append_right _ searched, hit⟩

/-- What a discovery has to show for the files it adds to those accepted before. -/
structure Account (evidence : List Call → RelatedFile → Prop) (accepted : List RelatedFile)
    (calls : List Call) (result : Ending (List RelatedFile)) : Prop where
  heeds : Heeds id calls result
  offered : Offered calls
  evident : ∀ found, result = .ok found → ∀ related ∈ found, related ∈ accepted ∨ evidence calls related

namespace Account

variable {evidence other : List Call → RelatedFile → Prop} {accepted middle : List RelatedFile}
  {calls more : List Call} {result : Ending (List RelatedFile)}

private theorem nothing : Account evidence accepted [] (.ok accepted) where
  heeds := .nothing
  offered := .nothing
  evident := by rintro _ ⟨⟩ related member; exact .inl member

private theorem imp (account : Account evidence accepted calls result)
    (weaker : ∀ related, evidence calls related → other calls related) :
    Account other accepted calls result :=
  { account with
    evident := fun found completed related member =>
      (account.evident found completed related member).imp_right (weaker related) }

private theorem append (mono : ∀ {early all related}, early ⊆ all → evidence early related → evidence all related)
    (first : Account evidence accepted calls (.ok middle)) (next : Account evidence middle more result) :
    Account evidence accepted (calls ++ more) result where
  heeds := first.heeds.append next.heeds
  offered := first.offered.append next.offered
  evident := by
    intro found completed related member
    rcases next.evident found completed related member with early | late
    · exact (first.evident middle rfl related early).imp_right (mono (List.subset_append_left _ _))
    · exact .inr (mono (List.subset_append_right _ _) late)

/-- Two lists that were found one after the other. -/
theorem both (mono : ∀ {early all related}, early ⊆ all → evidence early related → evidence all related)
    {found others : List RelatedFile} (first : Account evidence [] calls (.ok found))
    (next : Account evidence [] more (.ok others)) :
    Account evidence [] (calls ++ more) (.ok (found ++ others)) where
  heeds := first.heeds.append next.heeds
  offered := first.offered.append next.offered
  evident := by
    rintro _ ⟨⟩ related member
    rcases List.mem_append.mp member with early | late
    · exact (first.evident found rfl related early).imp_right (mono (List.subset_append_left _ _))
    · exact (next.evident others rfl related late).imp_right (mono (List.subset_append_right _ _))

/-- A search and the screening of its hits. -/
theorem ofScreening {screen : Screen} {query : Query} {limit : Nat} {ending : Ending (List String)}
    {answer hits : List String}
    (went : Heeds id [.search query limit ending] (.ok answer : Ending (List String)))
    (answered : hits ⊆ ending.toOption.getD []) (screening : Screening screen hits accepted calls result) :
    Account screen.Confirmed accepted ([.search query limit ending] ++ calls) result where
  heeds := went.append screening.heeds
  offered := by
    intro path pathEnding member
    rcases List.mem_cons.mp member with wrong | fetched
    · cases wrong
    · obtain ⟨_, _, same, hit⟩ := screening.calls_of_hits _ fetched
      cases same
      cases ending with
      | error e => exact absurd (answered hit) List.not_mem_nil
      | ok found => exact ⟨query, limit, found, List.mem_cons_self, answered hit⟩
  evident found completed related member :=
    (screening.confirmed completed related member).imp_right (·.mono (List.subset_cons_self _ _))

end Account

variable {σ : Type}

private theorem candidates_leaves (host : Host σ) (settings : Settings) (ref : RepositoryRef) (query : Query)
    (limit : Nat) :
    Leaves (candidates (host.recorded settings.requestTimeoutSecs) settings ref query limit)
      fun calls result => ∃ ending, calls = [.search query limit ending] ∧ Heeds id calls result ∧
        ∀ hits, result = .ok hits → hits ⊆ ending.toOption.getD [] := by
  refine (candidates_searches host settings ref query limit).imp ?_
  rintro _ _ ⟨ending, rfl, rfl⟩
  have heeds := Heeds.attemptSearch query limit ending
  cases went : Ending.attempted ending with
  | error e =>
    rw [went] at heeds
    exact ⟨ending, rfl, heeds, nofun⟩
  | ok hits? =>
    rw [went] at heeds
    refine ⟨ending, rfl, heeds, ?_⟩
    rintro _ ⟨⟩
    rw [Ending.toOption_of_attempted went]
    exact List.Subset.refl _

/-- A test stands under one of the names that were asked for. -/
def TestEvidence (settings : Settings) (target : String) (names : List String) (calls : List Call)
    (related : RelatedFile) : Prop :=
  ∃ name ∈ names, (Screen.tests settings target name).Confirmed calls related

variable (host : Host σ) (settings : Settings) (ref : RepositoryRef)

private theorem acceptNames_leaves (target : String) (names : List String) (accepted : List RelatedFile) :
    Leaves (acceptNames (host.recorded settings.requestTimeoutSecs) settings ref target names accepted)
      (Account (TestEvidence settings target names) accepted) := by
  induction names generalizing accepted with
  | nil => exact .pure .nothing
  | cons name rest ih =>
    unfold acceptNames
    split
    · exact .pure .nothing
    have mono {early all : List Call} {related : RelatedFile} (kept : early ⊆ all) :
        TestEvidence settings target (name :: rest) early related →
          TestEvidence settings target (name :: rest) all related :=
      fun ⟨other, asked, confirmed⟩ => ⟨other, asked, confirmed.mono kept⟩
    refine .bind (candidates_leaves host settings ref _ _) ?_ ?_
    · rintro _ e ⟨ending, rfl, heeds, answered⟩
      exact ⟨heeds, by simp [Offered], nofun⟩
    · rintro _ hits ⟨ending, rfl, heeds, answered⟩
      rw [acceptTests_eq_screened]
      have round {calls : List Call} {result : Ending (List RelatedFile)}
          (screening : Screening (.tests settings target name) hits accepted calls result) :
          Account (TestEvidence settings target (name :: rest)) accepted
            ([.search (.filename name) settings.maxTests ending] ++ calls) result :=
        (Account.ofScreening heeds (answered hits rfl) screening).imp fun _ confirmed =>
          ⟨name, List.mem_cons_self, confirmed⟩
      refine .bind (screened_leaves host settings ref _ hits accepted) (fun _ _ => round) ?_
      intro calls found screening
      refine (ih found).imp fun more result account => ?_
      rw [← List.append_assoc]
      refine (round screening).append mono (account.imp ?_)
      rintro related ⟨other, asked, confirmed⟩
      exact ⟨other, List.mem_cons_of_mem _ asked, confirmed⟩

/-- What a discovery of tests leaves accounts for every test, and a test has no tests of its own. -/
theorem findTests_leaves (target : String) :
    Leaves (findTests (host.recorded settings.requestTimeoutSecs) settings ref target)
      (Account (fun calls related => TestName.looksLikeTest target = false ∧
        TestEvidence settings target (TestName.candidates target) calls related) []) := by
  unfold findTests
  split
  · exact .pure .nothing
  · next wanted =>
    have plain : TestName.looksLikeTest target = false := by
      simp only [Bool.or_eq_true, not_or, Bool.not_eq_true] at wanted
      exact wanted.1
    exact (acceptNames_leaves host settings ref target _ []).imp fun _ _ account =>
      account.imp fun _ evidence => ⟨plain, evidence⟩

/-- What a discovery of dependents leaves accounts for every dependent. -/
theorem findDependents_leaves (target : String) (exports : List String) :
    Leaves (findDependents (host.recorded settings.requestTimeoutSecs) settings ref target exports)
      (Account (fun calls related => exports ≠ [] ∧
        (Screen.dependents settings target).Confirmed calls related) []) := by
  unfold findDependents
  dsimp only
  split
  · split
    · exact .pure .nothing
    · next wanted =>
      have declared : exports ≠ [] := by
        rintro rfl
        simp at wanted
      refine .bind (candidates_leaves host settings ref _ _) ?_ ?_
      · rintro _ e ⟨ending, rfl, heeds, answered⟩
        exact ⟨heeds, by simp [Offered], nofun⟩
      · rintro _ hits ⟨ending, rfl, heeds, answered⟩
        rw [acceptDependents_eq_screened]
        refine (screened_leaves host settings ref _ _ []).imp fun calls result screening => ?_
        have looked : hits.take (dependentBudget settings) ⊆ ending.toOption.getD [] :=
          fun _ member => answered hits rfl (List.mem_of_mem_take member)
        exact (Account.ofScreening heeds looked screening).imp fun _ confirmed => ⟨declared, confirmed⟩
  · exact .pure .nothing

private theorem verified_of_dependent {path content : String} {calls : List Call} {related : RelatedFile}
    (declared : (SourceRecord.parse path content).exports ≠ [])
    (confirmed : (Screen.dependents settings path).Confirmed calls related) :
    related.Verified path content calls := by
  obtain ⟨kind, target, fetched, ⟨_, admitted⟩, imports⟩ := confirmed
  simp only [Screen.dependents, mayDepend, Bool.and_eq_true, bne_iff_ne, Bool.not_eq_true'] at admitted
  obtain ⟨⟨other, own⟩, known⟩ := admitted
  exact ⟨target, other, fetched, fun _ => ⟨imports, own, known, declared⟩,
    fun test => by rw [kind] at test; cases test⟩

/-- A test under one of the names that were asked for is verified by its text. -/
theorem verified_of_test {path : String} (content : String) {calls : List Call} {related : RelatedFile}
    (plain : TestName.looksLikeTest path = false)
    (evidence : TestEvidence settings path (TestName.candidates path) calls related) :
    related.Verified path content calls := by
  obtain ⟨name, asked, kind, target, fetched, ⟨_, admitted⟩, mentions⟩ := evidence
  simp only [Screen.tests, Bool.not_or, Bool.and_eq_true, Bool.not_eq_true', beq_eq_false_iff_ne,
    bne_eq_false_iff_eq] at admitted
  obtain ⟨⟨other, _⟩, named⟩ := admitted
  exact ⟨target, other, fetched, fun dependent => (by rw [kind] at dependent; cases dependent),
    fun _ => ⟨named ▸ asked, (Text.occursIn_iff_infix _ _).mp mentions, plain⟩⟩

/-- A discovery accounts for every file it finds. -/
theorem discover_leaves (path content : String) :
    Leaves (discover (host.recorded settings.requestTimeoutSecs) settings ref path content)
      (Account (RelatedFile.Verified path content) []) := by
  have dependents : Leaves _ (Account (RelatedFile.Verified path content) []) :=
    (findDependents_leaves host settings ref path (SourceRecord.parse path content).exports).imp
      fun _ _ account => account.imp fun _ ⟨declared, confirmed⟩ =>
        verified_of_dependent settings declared confirmed
  have tests : Leaves _ (Account (RelatedFile.Verified path content) []) :=
    (findTests_leaves host settings ref path).imp
      fun _ _ account => account.imp fun _ ⟨plain, evidence⟩ =>
        verified_of_test settings content plain evidence
  refine .bind dependents ?_ ?_
  · exact fun calls e account => ⟨account.heeds, account.offered, nofun⟩
  intro calls found first
  refine .bind tests ?_ ?_
  · exact fun more e account =>
      ⟨first.heeds.append account.heeds, first.offered.append account.offered, nofun⟩
  intro more foundTests next
  refine .pure ?_
  rw [List.append_nil]
  exact first.both (fun kept verified => verified.mono kept) next

end Discovery

end ReviewContext

import Mathlib.Data.List.Nodup
import ReviewContext.Proofs.Discovery.Accepted
import ReviewContext.Proofs.Discovery.Alike

/-! # The tests that are found

A discovery of tests asks for one name after the other and screens the hits for each name, with the tests found for
the names before in mind. `Asking` tells every way this can go. What is found is nevertheless told in one piece, by
the hits for all names in a row: the first of them that show a test, of each path the first.
-/

namespace ReviewContext

/-! ## The first elements that are different -/

section Keep

variable {α : Type} [BEq α] [LawfulBEq α]

/-- Keeps an element that is new, as long as there is room. -/
def keep (cap : Nat) (kept : List α) (x : α) : List α :=
  if kept.length < cap ∧ x ∉ kept then kept ++ [x] else kept

private theorem keep_of_new {cap : Nat} {kept : List α} {x : α} (room : kept.length < cap) (new : x ∉ kept) :
    keep cap kept x = kept ++ [x] :=
  if_pos ⟨room, new⟩

private theorem keep_of_known {cap : Nat} {kept : List α} {x : α} (known : x ∈ kept) : keep cap kept x = kept :=
  if_neg fun both => both.2 known

private theorem foldl_keep_of_full {cap : Nat} {kept : List α} (full : cap ≤ kept.length) (xs : List α) :
    xs.foldl (keep cap) kept = kept := by
  induction xs with
  | nil => rfl
  | cons x xs ih =>
    have same : keep cap kept x = kept := if_neg fun both => absurd both.1 (Nat.not_lt_of_le full)
    rw [List.foldl_cons, same, ih]

/-- Keeping one element after the other is removing the repetitions and cutting off. -/
theorem foldl_keep {cap : Nat} (xs : List α) {kept : List α} (within : kept.length ≤ cap) :
    xs.foldl (keep cap) kept = (kept ++ (xs.filter fun x => !kept.contains x).eraseDups).take cap := by
  induction xs generalizing kept with
  | nil =>
    rw [List.foldl_nil, List.filter_nil, List.eraseDups_nil, List.append_nil, List.take_of_length_le within]
  | cons x xs ih =>
    by_cases full : cap ≤ kept.length
    · rw [foldl_keep_of_full full, List.take_append_of_le_length full, List.take_of_length_le within]
    by_cases known : x ∈ kept
    · rw [List.foldl_cons, keep_of_known known, ih within, List.filter_cons_of_neg (by simpa using known)]
    · have next : (kept ++ [x]).length ≤ cap := by
        rw [List.length_append, List.length_singleton]
        omega
      have others : (xs.filter fun y => !(kept ++ [x]).contains y) =
          (xs.filter fun y => !kept.contains y).filter fun y => !y == x := by
        rw [List.filter_filter]
        refine List.filter_congr fun y _ => ?_
        rw [List.contains_append, Bool.not_or, Bool.and_comm]
        simp
      rw [List.foldl_cons, keep_of_new (Nat.lt_of_not_le full) known, ih next, others,
        List.filter_cons_of_pos (by simpa using known), List.eraseDups_cons, List.append_assoc,
        List.singleton_append]

private theorem foldl_keep_nil (cap : Nat) (xs : List α) : xs.foldl (keep cap) [] = xs.eraseDups.take cap := by
  have all : (xs.filter fun x => !([] : List α).contains x) = xs := List.filter_eq_self.mpr fun _ _ => rfl
  rw [foldl_keep xs (show ([] : List α).length ≤ cap from Nat.zero_le cap), List.nil_append, all]

end Keep

private theorem prefix_append_cases {α : Type} {early xs ys : List α} (starts : early <+: xs ++ ys) :
    early <+: xs ∧ early ≠ xs ∨ ∃ late, early = xs ++ late ∧ late <+: ys := by
  rcases List.prefix_or_prefix_of_prefix starts (List.prefix_append xs ys) with short | ⟨late, rfl⟩
  · by_cases same : early = xs
    · exact .inr ⟨[], by rw [same, List.append_nil], List.nil_prefix⟩
    · exact .inl ⟨short, same⟩
  · exact .inr ⟨late, rfl, (List.prefix_append_right_inj xs).mp starts⟩

namespace Call

/-- What a search is for, and how many hits it wants at most. -/
def search? : Call → Option (Query × Nat)
  | fetch _ _ => none
  | search query limit _ => some (query, limit)

end Call

namespace Discovery

/-- The test that a call shows. -/
def test? (target : String) : Call → Option RelatedFile
  | .fetch path (.ok content) =>
    if Text.occursIn (Path.baseName target).toList content.toList then some ⟨path, .test, content, target⟩ else none
  | _ => none

private theorem exists_of_mem_tests {target : String} {calls : List Call} {related : RelatedFile}
    (member : related ∈ calls.filterMap (test? target)) :
    ∃ path content, .fetch path (.ok content) ∈ calls ∧
      Text.occursIn (Path.baseName target).toList content.toList = true ∧ related = ⟨path, .test, content, target⟩ := by
  obtain ⟨call, made, shown⟩ := List.mem_filterMap.mp member
  rcases call with ⟨path, e | content⟩ | _
  · cases shown
  · obtain ⟨mentions, same⟩ := Option.ite_none_right_eq_some.mp shown
    exact ⟨path, content, made, mentions, (Option.some.inj same).symm⟩
  · cases shown

private theorem shown?_tests (settings : Settings) (target name : String) :
    (Screen.tests settings target name).shown? = test? target := by
  funext call
  rcases call with ⟨path, e | content⟩ | _ <;> rfl

private theorem admits_tests {settings : Settings} {target name path : String} {accepted : List RelatedFile} :
    (Screen.tests settings target name).admits accepted path = true ↔
      path ≠ target ∧ path ∉ accepted.map (·.filename) ∧ Path.fileName path = name := by
  simp [Screen.tests, and_assoc]

namespace Screening

variable {screen : Screen} {settings : Settings} {target name : String} {hits : List String}
  {accepted found : List RelatedFile} {calls early : List Call} {result : Ending (List RelatedFile)}

private theorem searches_nothing (screening : Screening screen hits accepted calls result) :
    calls.filterMap Call.search? = [] := by
  refine List.filterMap_eq_nil_iff.mpr fun call member => ?_
  obtain ⟨path, ending, rfl, -⟩ := screening.calls_of_hits call member
  rfl

/-- A screening of tests fetches hits with the name that they were searched by. -/
theorem named_before_fetch {searched : Ending (List String)} {path : String} {ending : Ending String}
    (screening : Screening (.tests settings target name) (searched.toOption.getD []) accepted calls result)
    (starts : early ++ [.fetch path ending] <+: calls) :
    path ≠ target ∧ ∃ before hits between,
      .search (.filename name) settings.maxTests searched :: early =
        before ++ .search (.filename (Path.fileName path)) settings.maxTests (.ok hits) :: between ∧
      between.filterMap Call.search? = [] ∧ path ∈ hits := by
  have made : .fetch path ending ∈ calls := starts.subset (List.mem_append_right _ (List.mem_singleton_self _))
  obtain ⟨hit, before, admitted⟩ := screening.admitted_of_fetched made
  obtain ⟨other, -, rfl⟩ := admits_tests.mp admitted
  have quiet : early.filterMap Call.search? = [] := by
    refine List.filterMap_eq_nil_iff.mpr fun call member => ?_
    exact List.filterMap_eq_nil_iff.mp screening.searches_nothing call
      (starts.subset (List.mem_append_left _ member))
  cases searched with
  | error e => exact absurd hit List.not_mem_nil
  | ok hits => exact ⟨other, [], hits, early, rfl, quiet, hit⟩

/-- No test is accepted twice. -/
theorem tests_distinct (screening : Screening (.tests settings target name) hits accepted calls result)
    (completed : result = .ok found) (distinct : (accepted.map (·.filename)).Nodup) :
    (found.map (·.filename)).Nodup := by
  induction screening with
  | exhausted => cases completed; exact distinct
  | enough full => cases completed; exact distinct
  | passed room skipped tail ih => exact ih completed distinct
  | refused room admitted fatal => cases completed
  | unread room admitted mild tail ih => exact ih completed distinct
  | read room admitted tail ih =>
    refine ih completed ?_
    obtain ⟨-, fresh, -⟩ := admits_tests.mp admitted
    simp only [Screen.judge]
    split
    · rw [List.map_append, List.map_singleton]
      exact distinct.append (List.nodup_singleton _) (List.disjoint_singleton.mpr fresh)
    · exact distinct

end Screening

/-- Whether a hit for a name is a test of that name, by a table of answers. -/
def isTest (answers : Answers) (seconds : Nat) (target name path : String) : Bool :=
  path != target && Path.fileName path == name &&
    (answers.fetched seconds path).toOption.any fun content =>
      Text.occursIn (Path.baseName target).toList content.toList

/-- The hits for a name that are tests of that name. -/
def testsNamed (answers : Answers) (seconds : Nat) (settings : Settings) (target name : String) : List String :=
  ((answers.searched seconds (.filename name) settings.maxTests).toOption.getD []).filter
    (isTest answers seconds target name)

/-- A test is added to the names as one that is new and for which there is room. -/
theorem names_accept_tests (settings : Settings) (target name : String) (answers : Answers) (seconds : Nat)
    (accepted : List RelatedFile) (path : String) :
    ((Screen.tests settings target name).accept answers seconds accepted path).map (·.filename) =
      if isTest answers seconds target name path then keep settings.maxTests (accepted.map (·.filename)) path
      else accepted.map (·.filename) := by
  have accepts : (accepted.length < settings.maxTests ∧ (Screen.tests settings target name).admits accepted path ∧
        (Screen.tests settings target name).shows answers seconds path) ↔
      isTest answers seconds target name path ∧
        (accepted.map (·.filename)).length < settings.maxTests ∧ path ∉ accepted.map (·.filename) := by
    rw [admits_tests, List.length_map]
    simp only [isTest, Bool.and_eq_true, bne_iff_ne, beq_iff_eq]
    constructor
    · rintro ⟨room, ⟨other, fresh, named⟩, shows⟩
      exact ⟨⟨⟨other, named⟩, shows⟩, room, fresh⟩
    · rintro ⟨⟨⟨other, named⟩, shows⟩, room, fresh⟩
      exact ⟨room, ⟨other, fresh, named⟩, shows⟩
  rw [Screen.names_accept, keep, ← ite_and]
  exact if_congr accepts rfl rfl

/-- The ways in which tests are asked for by their names, with the calls that this makes and what comes of it. -/
inductive Asking (settings : Settings) (target : String) :
    List String → List RelatedFile → List Call → Ending (List RelatedFile) → Prop
  | exhausted {accepted : List RelatedFile} : Asking settings target [] accepted [] (.ok accepted)
  | enough {names : List String} {accepted : List RelatedFile} (full : settings.maxTests ≤ accepted.length) :
      Asking settings target names accepted [] (.ok accepted)
  | refused {name : String} {rest : List String} {accepted : List RelatedFile} {e : AccessError}
      (room : accepted.length < settings.maxTests) (fatal : e.isFatal = true) :
      Asking settings target (name :: rest) accepted [.search (.filename name) settings.maxTests (.error e)] (.error e)
  | broken {name : String} {rest : List String} {accepted : List RelatedFile} {ending : Ending (List String)}
      {calls : List Call} {e : AccessError} (room : accepted.length < settings.maxTests)
      (screening : Screening (.tests settings target name) (ending.toOption.getD []) accepted calls (.error e)) :
      Asking settings target (name :: rest) accepted
        (.search (.filename name) settings.maxTests ending :: calls) (.error e)
  | asked {name : String} {rest : List String} {accepted found : List RelatedFile} {ending : Ending (List String)}
      {calls more : List Call} {result : Ending (List RelatedFile)} (room : accepted.length < settings.maxTests)
      (screening : Screening (.tests settings target name) (ending.toOption.getD []) accepted calls (.ok found))
      (tail : Asking settings target rest found more result) :
      Asking settings target (name :: rest) accepted
        (.search (.filename name) settings.maxTests ending :: (calls ++ more)) result

section

variable {σ : Type} (host : Host σ) (settings : Settings) (ref : RepositoryRef) (target : String)

/-- Asking for each name goes one of the ways that there are. -/
theorem acceptNames_asks (names : List String) (accepted : List RelatedFile) :
    Leaves (acceptNames (host.recorded settings.requestTimeoutSecs) settings ref target names accepted)
      (Asking settings target names accepted) := by
  induction names generalizing accepted with
  | nil => exact .pure .exhausted
  | cons name rest ih =>
    unfold acceptNames
    split
    · next full => exact .pure (.enough full)
    next notFull =>
    have room : accepted.length < settings.maxTests := Nat.lt_of_not_le notFull
    refine .bind (candidates_searches host settings ref _ _) ?_ ?_
    · rintro _ e ⟨ending, rfl, ended⟩
      cases went : Ending.attempted ending with
      | error e =>
        obtain ⟨rfl, fatal⟩ := Ending.attempted_eq_error_iff.mp went
        rw [went] at ended
        cases ended
        exact .refused room fatal
      | ok hits? => rw [went] at ended; cases ended
    · rintro _ hits ⟨ending, rfl, ended⟩
      obtain rfl : hits = ending.toOption.getD [] := by
        cases went : Ending.attempted ending with
        | error e => rw [went] at ended; cases ended
        | ok hits? =>
          rw [went] at ended
          cases ended
          rw [Ending.toOption_of_attempted went]
      rw [acceptTests_eq_screened]
      refine .bind (screened_leaves host settings ref (.tests settings target name) _ accepted) ?_ ?_
      · exact fun calls e screening => .broken room screening
      · intro calls found screening
        refine (ih found).imp fun more result tail => ?_
        rw [List.singleton_append]
        exact .asked room screening tail

end

namespace Asking

variable {settings : Settings} {target : String} {names : List String} {accepted found : List RelatedFile}
  {calls : List Call} {result : Ending (List RelatedFile)}

/-- Unless a call is refused, the discovery is completed. -/
theorem completes (asking : Asking settings target names accepted calls result)
    (granted : ∀ call ∈ calls, ¬ call.Denied) : ∃ found, result = .ok found := by
  induction asking with
  | exhausted => exact ⟨_, rfl⟩
  | enough full => exact ⟨_, rfl⟩
  | @refused name rest accepted e room fatal =>
    exact absurd ((Call.denied_iff _).mpr ⟨e, rfl, fatal⟩) (granted _ List.mem_cons_self)
  | broken room screening =>
    obtain ⟨call, member, denied⟩ := screening.heeds.error_iff.mp ⟨_, rfl⟩
    exact absurd denied (granted call (List.mem_cons_of_mem _ member))
  | asked room screening tail ih =>
    exact ih fun call member => granted call (List.mem_cons_of_mem _ (List.mem_append_right _ member))

/-- Added is what the calls show, in their order. -/
theorem found_eq (asking : Asking settings target names accepted calls result) (completed : result = .ok found) :
    found = accepted ++ calls.filterMap (test? target) := by
  induction asking with
  | exhausted => cases completed; simp
  | enough full => cases completed; simp
  | refused room fatal => cases completed
  | broken room screening => cases completed
  | @asked name rest accepted middle ending calls more result room screening tail ih =>
    have shown := screening.found_eq rfl
    rw [shown?_tests] at shown
    rw [ih completed, shown, List.filterMap_cons_none rfl, List.filterMap_append, List.append_assoc]

/-- As long as there are calls to come, there is room. -/
theorem room_before (asking : Asking settings target names accepted calls result) {early : List Call}
    (starts : early <+: calls) (shorter : early ≠ calls) :
    accepted.length + (early.filterMap (test? target)).length < settings.maxTests := by
  induction asking generalizing early with
  | exhausted => exact absurd (List.prefix_nil.mp starts) shorter
  | enough full => exact absurd (List.prefix_nil.mp starts) shorter
  | refused room fatal =>
    cases early with
    | nil => exact room
    | cons call early =>
      obtain ⟨rfl, later⟩ := List.cons_prefix_cons.mp starts
      exact absurd (congrArg _ (List.prefix_nil.mp later)) shorter
  | @broken name rest accepted ending calls e room screening =>
    cases early with
    | nil => exact room
    | cons call early =>
      obtain ⟨rfl, later⟩ := List.cons_prefix_cons.mp starts
      have goesOn := screening.room_before later fun same => shorter (congrArg _ same)
      rwa [shown?_tests] at goesOn
  | @asked name rest accepted middle ending calls more result room screening tail ih =>
    cases early with
    | nil => exact room
    | cons call early =>
      obtain ⟨rfl, later⟩ := List.cons_prefix_cons.mp starts
      rw [List.filterMap_cons_none rfl]
      rcases prefix_append_cases later with ⟨within, less⟩ | ⟨late, rfl, beyond⟩
      · have goesOn := screening.room_before within less
        rwa [shown?_tests] at goesOn
      · -- The calls for the first name are all made, so that what they show is accepted already.
        have goesOn := ih beyond fun same => shorter (by rw [same])
        have shown := congrArg List.length (screening.found_eq rfl)
        rw [shown?_tests, List.length_append] at shown
        rw [List.filterMap_append, List.length_append]
        omega

/-- Names are asked for in their order, until all are asked for or there are enough tests. -/
theorem searches (asking : Asking settings target names accepted calls result) :
    ∃ asked, asked <+: names ∧
      calls.filterMap Call.search? = asked.map (fun name => (.filename name, settings.maxTests)) ∧
      ∀ found, result = .ok found → asked = names ∨ settings.maxTests ≤ found.length := by
  induction asking with
  | exhausted => exact ⟨[], List.prefix_rfl, rfl, fun _ _ => .inl rfl⟩
  | enough full =>
    refine ⟨[], List.nil_prefix, rfl, fun found completed => ?_⟩
    cases completed
    exact .inr full
  | @refused name rest accepted e room fatal => exact ⟨[name], List.prefix_append _ _, rfl, nofun⟩
  | @broken name rest accepted ending calls e room screening =>
    refine ⟨[name], List.prefix_append [name] rest, ?_, nofun⟩
    rw [List.filterMap_cons, screening.searches_nothing]
    rfl
  | @asked name rest accepted middle ending calls more result room screening tail ih =>
    obtain ⟨asked, starts, searched, stops⟩ := ih
    refine ⟨name :: asked, List.cons_prefix_cons.mpr ⟨rfl, starts⟩, ?_, fun found completed => ?_⟩
    · rw [List.filterMap_cons, List.filterMap_append, screening.searches_nothing, searched]
      rfl
    · exact (stops found completed).imp_left (congrArg _)

/-- A hit is fetched after the search for its own name, and before any other. -/
theorem search_before_fetch (asking : Asking settings target names accepted calls result) {early : List Call}
    {path : String} {ending : Ending String} (starts : early ++ [.fetch path ending] <+: calls) :
    path ≠ target ∧ ∃ before hits between,
      early = before ++ .search (.filename (Path.fileName path)) settings.maxTests (.ok hits) :: between ∧
      between.filterMap Call.search? = [] ∧ path ∈ hits := by
  induction asking generalizing early with
  | exhausted => simp at starts
  | enough full => simp at starts
  | refused room fatal =>
    cases early with
    | nil => cases (List.cons_prefix_cons.mp starts).1
    | cons call early => simpa using (List.cons_prefix_cons.mp starts).2
  | @broken name rest accepted searched calls e room screening =>
    cases early with
    | nil => cases (List.cons_prefix_cons.mp starts).1
    | cons call early =>
      obtain ⟨rfl, later⟩ := List.cons_prefix_cons.mp starts
      exact screening.named_before_fetch later
  | @asked name rest accepted middle searched calls more result room screening tail ih =>
    cases early with
    | nil => cases (List.cons_prefix_cons.mp starts).1
    | cons call early =>
      obtain ⟨rfl, later⟩ := List.cons_prefix_cons.mp starts
      rcases prefix_append_cases later with ⟨within, -⟩ | ⟨late, same, beyond⟩
      · exact screening.named_before_fetch within
      rcases List.eq_nil_or_concat late with rfl | ⟨lateEarly, last, rfl⟩
      · rw [List.append_nil] at same
        exact screening.named_before_fetch ⟨[], (List.append_nil _).trans same⟩
      · rw [List.concat_eq_append] at same beyond
        rw [← List.append_assoc] at same
        obtain ⟨rfl, one⟩ := List.append_inj' same rfl
        obtain rfl := List.singleton_inj.mp one
        obtain ⟨other, before, hits, between, rfl, quiet, hit⟩ := ih beyond
        exact ⟨other, .search (.filename name) settings.maxTests searched :: (calls ++ before), hits, between,
          by rw [List.cons_append, List.append_assoc], quiet, hit⟩

private theorem distinct (asking : Asking settings target names accepted calls result) (completed : result = .ok found)
    (distinct : (accepted.map (·.filename)).Nodup) : (found.map (·.filename)).Nodup := by
  induction asking with
  | exhausted => cases completed; exact distinct
  | enough full => cases completed; exact distinct
  | refused room fatal => cases completed
  | broken room screening => cases completed
  | asked room screening tail ih => exact ih completed (screening.tests_distinct rfl distinct)

/-- By a table of answers the hits for all names are gone through in a row. -/
theorem found_by_table (asking : Asking settings target names accepted calls result) (completed : result = .ok found)
    {answers : Answers} {seconds : Nat} (given : ∀ call ∈ calls, answers.Gives seconds call) :
    found.map (·.filename) =
      (names.flatMap (testsNamed answers seconds settings target)).foldl (keep settings.maxTests)
        (accepted.map (·.filename)) := by
  induction asking with
  | exhausted => cases completed; rfl
  | enough full =>
    cases completed
    rw [foldl_keep_of_full]
    rwa [List.length_map]
  | refused room fatal => cases completed
  | broken room screening => cases completed
  | @asked name rest accepted middle ending calls more result room screening tail ih =>
    obtain ⟨first, later⟩ := List.forall_mem_cons.mp given
    obtain ⟨fetches, last⟩ := List.forall_mem_append.mp later
    obtain rfl : ending = answers.searched seconds (.filename name) settings.maxTests := first
    rw [ih completed last, List.flatMap_cons, List.foldl_append, screening.found_by_table rfl fetches,
      Screen.names_foldl (names_accept_tests settings target name answers seconds)]
    rfl

end Asking

section

variable {σ : Type} (host : Host σ) (settings : Settings) (ref : RepositoryRef) (target : String)

/-- The calls of a discovery of tests, with how they ended. -/
def testsTape (world : World σ) : List Call :=
  (findTests (host.recorded settings.requestTimeoutSecs) settings ref target world.recorded).2.host.tape

theorem findTests_fst_recorded (world : World σ) :
    (findTests (host.recorded settings.requestTimeoutSecs) settings ref target world.recorded).1 =
      (findTests host settings ref target world).1 :=
  (findTests_alike ⟨rfl, rfl, rfl⟩ ((host.tied_recorded ref _).agreesWithin _) target).fst_recorded world

private theorem testsTape_gives {answers : Answers} {world : World σ} (tabled : host.Tabled ref answers world) :
    ∀ call ∈ testsTape host settings ref target world, answers.Gives settings.requestTimeoutSecs call :=
  Answers.tape_gives (findTests_alike ⟨rfl, rfl, rfl⟩ ((answers.tied_kept host ref _).agreesWithin _) target) tabled

variable {settings target}

private theorem findTests_of_wanted (plain : TestName.looksLikeTest target = false) (wanted : 0 < settings.maxTests) :
    findTests host settings ref target = acceptNames host settings ref target (TestName.candidates target) [] := by
  refine if_neg ?_
  simp [plain, Nat.ne_of_gt wanted]

private theorem findTests_asks (plain : TestName.looksLikeTest target = false) (wanted : 0 < settings.maxTests)
    (world : World σ) :
    Asking settings target (TestName.candidates target) [] (testsTape host settings ref target world)
      (findTests host settings ref target world).1 := by
  rw [← findTests_fst_recorded, testsTape, findTests_of_wanted _ ref plain wanted]
  exact (acceptNames_asks host settings ref target (TestName.candidates target) []).fresh world

/-- No test is found twice. -/
theorem findTests_distinct {world : World σ} {found : List RelatedFile}
    (completed : (findTests host settings ref target world).1 = .ok found) : (found.map (·.filename)).Nodup := by
  by_cases asked : TestName.looksLikeTest target = false ∧ 0 < settings.maxTests
  · have asking := findTests_asks host ref asked.1 asked.2 world
    exact asking.distinct completed List.nodup_nil
  · have needless : findTests host settings ref target = pure [] := by
      refine if_pos ?_
      cases plain : TestName.looksLikeTest target with
      | true => rfl
      | false =>
        have none : settings.maxTests = 0 := by
          by_contra positive
          exact asked ⟨plain, Nat.pos_of_ne_zero positive⟩
        simp [none]
    rw [needless] at completed
    cases completed
    exact List.nodup_nil

/-- A target that is no test has as its tests the first hits for its names that are named so and mention it, each
once. The names are searched for in turn until there are enough tests, and no hit is fetched unless it was searched
for by its own name. -/
theorem tests_are_first_of_named {answers : Answers} {world : World σ} (tabled : host.Tabled ref answers world)
    (plain : TestName.looksLikeTest target = false) (wanted : 0 < settings.maxTests)
    (granted : ∀ call ∈ testsTape host settings ref target world, ¬ call.Denied) :
    let seconds := settings.requestTimeoutSecs
    let tape := testsTape host settings ref target world
    let named := (TestName.candidates target).flatMap (testsNamed answers seconds settings target)
    ∃ found, (findTests host settings ref target world).1 = .ok found ∧
      found.map (·.filename) = named.eraseDups.take settings.maxTests ∧
      (found.map (·.filename)).Nodup ∧
      (∀ related ∈ found, related.relationship = .test ∧ related.target = target ∧
        answers.fetched seconds related.filename = .ok related.content) ∧
      found = tape.filterMap (test? target) ∧
      (∀ early, early <+: tape → early ≠ tape → (early.filterMap (test? target)).length < settings.maxTests) ∧
      (∃ asked, asked <+: TestName.candidates target ∧
        tape.filterMap Call.search? = asked.map (fun name => (.filename name, settings.maxTests)) ∧
        (asked = TestName.candidates target ∨ found.length = settings.maxTests)) ∧
      ∀ early path ending, early ++ [.fetch path ending] <+: tape →
        path ≠ target ∧ ∃ before hits between,
          early = before ++ .search (.filename (Path.fileName path)) settings.maxTests (.ok hits) :: between ∧
          between.filterMap Call.search? = [] ∧ path ∈ hits := by
  intro seconds tape named
  have asking := findTests_asks host ref plain wanted world
  obtain ⟨found, completed⟩ := asking.completes granted
  rw [completed] at asking ⊢
  have given := testsTape_gives host settings ref target tabled
  have shown : found = tape.filterMap (test? target) := asking.found_eq rfl
  have names : found.map (·.filename) = named.eraseDups.take settings.maxTests := by
    rw [asking.found_by_table rfl given, ← foldl_keep_nil]
    rfl
  refine ⟨found, rfl, names, asking.distinct rfl List.nodup_nil, ?_, shown, ?_, ?_, ?_⟩
  · intro related member
    rw [shown] at member
    obtain ⟨path, content, made, -, rfl⟩ := exists_of_mem_tests member
    exact ⟨rfl, rfl, Eq.symm (given _ made)⟩
  · intro early starts shorter
    have room := asking.room_before starts shorter
    rwa [List.length_nil, Nat.zero_add] at room
  · obtain ⟨asked, starts, searched, stops⟩ := asking.searches
    refine ⟨asked, starts, searched, (stops found rfl).imp_right fun full => Nat.le_antisymm ?_ full⟩
    rw [← List.length_map (·.filename), names]
    exact List.length_take_le _ _
  · exact fun early path ending starts => asking.search_before_fetch starts

end

/-- Two of the names of the tests of `test.py` are the same, and the hits for them repeat. -/
theorem tests_are_first_of_named_of_same_names :
    let hits := ["c/test_test.py", "a/test_test.py", "test_test.pyc", "a/test_test.py", "d/test_test.py",
      "b/test_test.py"]
    let repo : MemoryRepository :=
      ⟨[("a/test_test.py", "import test"), ("b/test_test.py", "from test import run"), ("c/test_test.py", "pass"),
        ("test.spec.py", "run test"), ("test.spec.pyc", "test")], [],
        [("filename:test_test.py", ⟨none, 0, some hits, none⟩)], []⟩
    let settings : Settings := { maxTests := 5 }
    let ref : RepositoryRef := ⟨"shop", "till", "main"⟩
    let names := ["test.test.py", "test.spec.py", "testTest.py", "testTests.py", "test_test.py", "test_test.py"]
    let tape := testsTape MemoryRepository.host settings ref "test.py" ⟨repo, 0⟩
    MemoryRepository.host.Tabled ref (repo.answers ref) ⟨repo, 0⟩ ∧ TestName.looksLikeTest "test.py" = false ∧
      0 < settings.maxTests ∧ (∀ call ∈ tape, ¬ call.Denied) ∧ TestName.candidates "test.py" = names ∧
      names.flatMap (testsNamed (repo.answers ref) settings.requestTimeoutSecs settings "test.py") =
        ["test.spec.py", "a/test_test.py", "a/test_test.py", "b/test_test.py", "a/test_test.py", "a/test_test.py",
          "b/test_test.py"] ∧
      ∃ found, (findTests MemoryRepository.host settings ref "test.py" ⟨repo, 0⟩).1 = .ok found ∧
        found.map (·.filename) = ["test.spec.py", "a/test_test.py", "b/test_test.py"] := by
  intro hits repo settings ref names tape
  have same : MemoryRepository.Same ⟨repo, 0⟩ ⟨repo, 0⟩ := .refl (by decide)
  have tabled := MemoryRepository.tabled ref same
  have plain : TestName.looksLikeTest "test.py" = false := by decide +kernel
  have granted : ∀ call ∈ tape, ¬ call.Denied := by decide +kernel
  have all : TestName.candidates "test.py" = names := by decide +kernel
  have named : names.flatMap (testsNamed (repo.answers ref) settings.requestTimeoutSecs settings "test.py") =
      ["test.spec.py", "a/test_test.py", "a/test_test.py", "b/test_test.py", "a/test_test.py", "a/test_test.py",
        "b/test_test.py"] := by decide +kernel
  obtain ⟨found, completed, first, -⟩ :=
    tests_are_first_of_named MemoryRepository.host ref tabled plain (by decide) granted
  rw [all, named] at first
  exact ⟨tabled, plain, by decide, granted, all, named, found, completed, first⟩

end Discovery

end ReviewContext

import ReviewContext.Proofs.Host.Memory

/-! # Repositories in memory at another pace

The delays of all rules can be set anew. At a repository without a state and at any two paces that are not
too slow, a call that is waited for gives a run the same and leaves the same notes, only at another time.
-/

namespace ReviewContext

/-- How long the calls under each key of a rule take. -/
structure Delays where
  fetch : String → Nat
  search : String → Nat

/-- No call takes longer than `seconds`. -/
structure Delays.Within (seconds : Nat) (delays : Delays) : Prop where
  fetch : ∀ key, delays.fetch key ≤ 1000 * seconds
  search : ∀ key, delays.search key ≤ 1000 * seconds

/-- The rule with another delay. -/
def MemoryRule.paced (delay : Nat) (rule : MemoryRule) : MemoryRule :=
  { rule with delay }

namespace MemoryRules

variable {rules : MemoryRules} (delay : String → Nat)

def paced (rules : MemoryRules) : MemoryRules :=
  rules.map fun entry => (entry.1, entry.2.paced (delay entry.1))

private theorem Lasting.paced (lasting : rules.Lasting) : (rules.paced delay).Lasting := by
  intro entry member
  obtain ⟨slow, known, rfl⟩ := List.mem_map.mp member
  exact lasting slow known

private theorem has_paced (key : String) : (rules.paced delay).has key = rules.has key := by
  unfold has MemoryRules.paced
  rw [List.any_map]
  rfl

private theorem find?_paced (key : String) :
    (rules.paced delay).find? (·.1 == key) =
      (rules.find? (·.1 == key)).map fun entry => (entry.1, entry.2.paced (delay entry.1)) := by
  unfold MemoryRules.paced
  rw [List.find?_map]
  rfl

/-- The same rule holds for a call, with the delay of a key. -/
theorem take_paced (lasting : rules.Lasting) (key : String) :
    ∃ known, ((rules.paced delay).take key).1 = (rules.take key).1.map (·.paced (delay known)) := by
  unfold take
  rw [has_paced]
  dsimp only
  rw [find?_paced]
  cases found : rules.find? (·.1 == if rules.has key then key else "*") with
  | none => exact ⟨key, rfl⟩
  | some entry =>
    have forever : entry.2.times? = none := lasting entry (List.mem_of_find?_eq_some found)
    refine ⟨entry.1, ?_⟩
    simp only [Option.map_some, MemoryRule.paced, forever]

end MemoryRules

namespace MemoryRepository

variable {repo : MemoryRepository} {delays : Delays} {seconds : Nat}

/-- The repository with other delays. -/
def paced (delays : Delays) (repo : MemoryRepository) : MemoryRepository :=
  { repo with
    fetchRules := repo.fetchRules.paced delays.fetch
    searchRules := repo.searchRules.paced delays.search }

private theorem Stateless.paced (stateless : repo.Stateless) (delays : Delays) : (repo.paced delays).Stateless :=
  ⟨MemoryRules.Lasting.paced delays.fetch stateless.1, MemoryRules.Lasting.paced delays.search stateless.2⟩

private theorem fetch_paced (stateless : repo.Stateless) (inTime : delays.Within seconds) (ref : RepositoryRef)
    (path : String) :
    ∃ delay ≤ 1000 * seconds, (repo.paced delays).fetch ref path =
      (⟨delay, (repo.fetch ref path).1.result⟩, (repo.fetch ref path).2.paced delays) := by
  obtain ⟨known, same⟩ := MemoryRules.take_paced delays.fetch stateless.1 path
  have kept : ((repo.paced delays).fetch ref path).2 = (repo.fetch ref path).2.paced delays := by
    rw [fetch_of_stateless stateless, fetch_of_stateless (stateless.paced delays)]
    rfl
  change ((repo.paced delays).fetchRules.take path).1 = _ at same
  cases rule : (repo.fetchRules.take path).1 with
  | none =>
    refine ⟨0, Nat.zero_le _, Prod.ext ?_ kept⟩
    simp only [fetch, same, rule, Option.map_none]
    rfl
  | some rule =>
    refine ⟨delays.fetch known, inTime.fetch known, Prod.ext ?_ kept⟩
    simp only [fetch, same, rule, Option.map_some]
    rfl

private theorem search_paced (stateless : repo.Stateless) (inTime : delays.Within seconds) (ref : RepositoryRef)
    (query : Query) (limit : Nat) :
    ∃ delay ≤ 1000 * seconds, (repo.paced delays).search ref query limit =
      (⟨delay, (repo.search ref query limit).1.result⟩, (repo.search ref query limit).2.paced delays) := by
  obtain ⟨known, same⟩ := MemoryRules.take_paced delays.search stateless.2 (queryKey query)
  have kept : ((repo.paced delays).search ref query limit).2 =
      (repo.search ref query limit).2.paced delays := by
    rw [search_of_stateless stateless, search_of_stateless (stateless.paced delays)]
    rfl
  change ((repo.paced delays).searchRules.take (queryKey query)).1 = _ at same
  cases rule : (repo.searchRules.take (queryKey query)).1 with
  | none =>
    refine ⟨0, Nat.zero_le _, Prod.ext ?_ kept⟩
    simp only [search, same, rule, Option.map_none]
    rfl
  | some rule =>
    refine ⟨delays.search known, inTime.search known, Prod.ext ?_ kept⟩
    simp only [search, same, rule, Option.map_some]
    rfl

/-- The same stateless repository at two paces, with the same notes. -/
def Paced (first second : Delays) (left right : MemoryRepository) : Prop :=
  ∃ repo : MemoryRepository, repo.Stateless ∧ left = repo.paced first ∧ right = repo.paced second

/-- A pace has no part in whether a rule is for a number of calls only. -/
theorem Paced.stateless {first second : Delays} {left right : MemoryRepository}
    (paced : Paced first second left right) : left.Stateless := by
  obtain ⟨repo, stateless, rfl, _⟩ := paced
  exact stateless.paced first

theorem Paced.calls {first second : Delays} {left right : MemoryRepository}
    (paced : Paced first second left right) : left.calls = right.calls := by
  obtain ⟨repo, _, rfl, rfl⟩ := paced
  rfl

end MemoryRepository

/-- A reply that is in time is not changed by waiting for it. -/
theorem Reply.within_of_le {α : Type} {seconds delay : Nat} {result : Except AccessError α}
    (inTime : delay ≤ 1000 * seconds) : (⟨delay, result⟩ : Reply α).within seconds = ⟨delay, result⟩ :=
  if_neg (Nat.not_lt.mpr inTime)

/-- Worlds whose hosts are related, at whatever time. -/
def World.Bonded {σ τ : Type} (bond : σ → τ → Prop) (left : World σ) (right : World τ) : Prop :=
  bond left.host right.host

namespace MemoryRepository

/-- A call that is waited for at both paces brings the same. -/
theorem agreesWithin_paced {seconds : Nat} {first second : Delays} (firstInTime : first.Within seconds)
    (secondInTime : second.Within seconds) (ref : RepositoryRef) :
    host.AgreesWithin ref seconds host (World.Bonded (Paced first second)) where
  fetch path := by
    rintro ⟨_, _⟩ ⟨_, _⟩ ⟨repo, stateless, rfl, rfl⟩
    obtain ⟨_, inTime, same⟩ := fetch_paced stateless firstInTime ref path
    obtain ⟨_, inTimeToo, sameToo⟩ := fetch_paced stateless secondInTime ref path
    simp only [Run.await, host, same, sameToo, Reply.within_of_le inTime, Reply.within_of_le inTimeToo]
    refine ⟨trivial, _, ?_, rfl, rfl⟩
    rw [fetch_of_stateless stateless]
    exact stateless
  search query limit := by
    rintro ⟨_, _⟩ ⟨_, _⟩ ⟨repo, stateless, rfl, rfl⟩
    obtain ⟨_, inTime, same⟩ := search_paced stateless firstInTime ref query limit
    obtain ⟨_, inTimeToo, sameToo⟩ := search_paced stateless secondInTime ref query limit
    simp only [Run.await, host, same, sameToo, Reply.within_of_le inTime, Reply.within_of_le inTimeToo]
    refine ⟨trivial, _, ?_, rfl, rfl⟩
    rw [search_of_stateless stateless]
    exact stateless

end MemoryRepository

end ReviewContext

import ReviewContext.Host.Memory
import ReviewContext.Proofs.Host.Alike

/-! # Repositories in memory without a state

If no rule is for a number of calls only, a call changes nothing but the notes of calls, and no reply
depends on those. Such a repository is tied to itself at any later time.
-/

namespace ReviewContext

/-- No rule is for a number of calls only. -/
def MemoryRules.Lasting (rules : MemoryRules) : Prop :=
  ∀ rule ∈ rules, rule.2.times? = none

instance (rules : MemoryRules) : Decidable rules.Lasting :=
  inferInstanceAs (Decidable (∀ rule ∈ rules, rule.2.times? = none))

private theorem MemoryRules.take_of_lasting {rules : MemoryRules} (lasting : rules.Lasting) (key : String) :
    (rules.take key).2 = rules := by
  unfold MemoryRules.take
  dsimp only
  split
  · rfl
  · next rule found =>
    rw [lasting _ (List.mem_of_find?_eq_some found)]

namespace MemoryRepository

/-- Every rule is for all calls, so that replies do not depend on what was asked before. -/
def Stateless (repo : MemoryRepository) : Prop :=
  repo.fetchRules.Lasting ∧ repo.searchRules.Lasting

instance (repo : MemoryRepository) : Decidable repo.Stateless :=
  inferInstanceAs (Decidable (repo.fetchRules.Lasting ∧ repo.searchRules.Lasting))

/-- A fetch leaves nothing but a note in a stateless repository. -/
theorem fetch_of_stateless {repo : MemoryRepository} (stateless : repo.Stateless) (ref : RepositoryRef)
    (path : String) :
    (repo.fetch ref path).2 = repo.note ("fetch " ++ ref.display ++ " " ++ path) := by
  simp only [fetch, MemoryRules.take_of_lasting stateless.1]

/-- A search leaves nothing but a note in a stateless repository. -/
theorem search_of_stateless {repo : MemoryRepository} (stateless : repo.Stateless) (ref : RepositoryRef)
    (query : Query) (limit : Nat) :
    (repo.search ref query limit).2 =
      repo.note ("search " ++ ref.display ++ " " ++ queryKey query ++ " limit " ++ toString limit) := by
  simp only [search, MemoryRules.take_of_lasting stateless.2]

/-- The same stateless repository, whatever calls it has noted and however much time has passed. -/
structure Same (left right : World MemoryRepository) : Prop where
  stateless : left.host.Stateless
  notes : ∃ calls, right.host = { left.host with calls }

namespace Same

variable {left middle right : World MemoryRepository}

theorem refl (stateless : left.host.Stateless) : Same left left :=
  ⟨stateless, left.host.calls, rfl⟩

theorem symm (same : Same left right) : Same right left := by
  obtain ⟨stateless, calls, there⟩ := same
  rw [Stateless] at stateless
  exact ⟨by rw [there]; exact stateless, left.host.calls, by rw [there]⟩

theorem trans (same : Same left middle) (next : Same middle right) : Same left right := by
  obtain ⟨stateless, calls, there⟩ := same
  obtain ⟨_, more, thereNext⟩ := next
  exact ⟨stateless, more, by rw [thereNext, there]⟩

/-- A fetch changes no more than the notes. -/
theorem fetched (same : Same left right) (ref : RepositoryRef) (path : String) :
    Same left (MemoryRepository.host.fetched ref path right) := by
  have stateless : right.host.Stateless := same.symm.stateless
  refine same.trans ⟨stateless, (right.host.fetch ref path).2.calls, ?_⟩
  change (right.host.fetch ref path).2 = _
  rw [fetch_of_stateless stateless]
  rfl

theorem searched (same : Same left right) (ref : RepositoryRef) (query : Query) (limit : Nat) :
    Same left (MemoryRepository.host.searched ref query limit right) := by
  have stateless : right.host.Stateless := same.symm.stateless
  refine same.trans ⟨stateless, (right.host.search ref query limit).2.calls, ?_⟩
  change (right.host.search ref query limit).2 = _
  rw [search_of_stateless stateless]
  rfl

end Same

/-- No reply depends on the notes. -/
theorem tied_same (ref : RepositoryRef) : host.Tied ref host Same where
  fetch path left right same := by
    have own := (Same.refl same.stateless).fetched ref path
    have kept := own.symm.trans (same.fetched ref path)
    obtain ⟨_, calls, there⟩ := same
    exact ⟨by rw [there]; rfl, kept⟩
  search query limit left right same := by
    have own := (Same.refl same.stateless).searched ref query limit
    have kept := own.symm.trans (same.searched ref query limit)
    obtain ⟨_, calls, there⟩ := same
    exact ⟨by rw [there]; rfl, kept⟩
  wait _ _ _ same := ⟨same.stateless, same.notes⟩

/-- A run leaves the repository the same. -/
theorem tied_since (ref : RepositoryRef) (start : World MemoryRepository) :
    host.Tied ref host fun left right => left = right ∧ Same start left where
  fetch := by
    rintro path left _ ⟨rfl, same⟩
    exact ⟨rfl, rfl, same.fetched ref path⟩
  search := by
    rintro query limit left _ ⟨rfl, same⟩
    exact ⟨rfl, rfl, same.searched ref query limit⟩
  wait := by
    rintro delay left _ ⟨rfl, same⟩
    exact ⟨rfl, same.stateless, same.notes⟩

end MemoryRepository

end ReviewContext

import ReviewContext.Host.Basic

/-! # Runs on two hosts

Two hosts are tied by a relation between their worlds if related worlds give the same replies and neither
a call nor waiting breaks the relation. A run then ends alike on both, in related worlds. The steps of a
run are treated here, so that a function needs no more than its own shape to be carried across.
-/

namespace ReviewContext

variable {σ τ α β ε : Type}

/-- A step that fails ends the run where it stands. -/
theorem bind_apply (step : ExceptT ε (StateM (World σ)) α) (rest : α → ExceptT ε (StateM (World σ)) β)
    (world : World σ) :
    (step >>= rest) world = match step world with
      | (.ok a, after) => rest a after
      | (.error e, after) => (.error e, after) := by
  simp only [Bind.bind, ExceptT.bind, ExceptT.mk, StateT.bind]
  cases step world with
  | mk result after => cases result <;> rfl

/-- Two steps succeed where the first does and the second does in the world that it leaves. -/
theorem bind_eq_ok_iff {step : ExceptT ε (StateM (World σ)) α} {rest : α → ExceptT ε (StateM (World σ)) β}
    {world after : World σ} {b : β} :
    (step >>= rest) world = (.ok b, after) ↔
      ∃ a middle, step world = (.ok a, middle) ∧ rest a middle = (.ok b, after) := by
  rw [bind_apply]
  rcases step world with ⟨e | a, middle⟩
  · constructor
    · intro failed
      cases failed
    · rintro ⟨a, other, failed, _⟩
      cases failed
  · constructor
    · exact fun went => ⟨a, middle, rfl, went⟩
    · rintro ⟨_, _, same, went⟩
      cases same
      exact went

/-- The world after so many milliseconds. -/
def World.wait (delay : Nat) (world : World σ) : World σ :=
  { world with elapsed := world.elapsed + delay }

/-- The world after a fetch, before its reply is waited for. -/
def Host.fetched (host : Host σ) (ref : RepositoryRef) (path : String) (world : World σ) : World σ :=
  { world with host := (host.fetch ref path world.host).2 }

/-- The world after a search, before its reply is waited for. -/
def Host.searched (host : Host σ) (ref : RepositoryRef) (query : Query) (limit : Nat) (world : World σ) :
    World σ :=
  { world with host := (host.search ref query limit world.host).2 }

/-- Related worlds get the same replies, and neither a call nor waiting takes them apart. -/
structure Host.Tied (ref : RepositoryRef) (host : Host σ) (other : Host τ)
    (tie : World σ → World τ → Prop) : Prop where
  fetch : ∀ path {left right}, tie left right →
    (host.fetch ref path left.host).1 = (other.fetch ref path right.host).1 ∧
      tie (host.fetched ref path left) (other.fetched ref path right)
  search : ∀ query limit {left right}, tie left right →
    (host.search ref query limit left.host).1 = (other.search ref query limit right.host).1 ∧
      tie (host.searched ref query limit left) (other.searched ref query limit right)
  wait : ∀ delay {left right}, tie left right → tie (left.wait delay) (right.wait delay)

/-- From related worlds the runs end alike, and in related worlds. -/
def Alike (tie : World σ → World τ → Prop) (run : World σ → α × World σ) (other : World τ → α × World τ) :
    Prop :=
  ∀ ⦃left right⦄, tie left right → (run left).1 = (other right).1 ∧ tie (run left).2 (other right).2

namespace Alike

variable {ref : RepositoryRef} {host : Host σ} {other : Host τ} {tie : World σ → World τ → Prop}

theorem pure (a : α) :
    Alike tie (Pure.pure a : ExceptT ε (StateM (World σ)) α)
      (Pure.pure a : ExceptT ε (StateM (World τ)) α) :=
  fun _ _ related => ⟨rfl, related⟩

/-- Runs that go alike compose, if what follows goes alike for each result. -/
theorem bind {step : ExceptT ε (StateM (World σ)) α} {otherStep : ExceptT ε (StateM (World τ)) α}
    {rest : α → ExceptT ε (StateM (World σ)) β} {otherRest : α → ExceptT ε (StateM (World τ)) β}
    (first : Alike tie step otherStep) (next : ∀ a, Alike tie (rest a) (otherRest a)) :
    Alike tie (step >>= rest) (otherStep >>= otherRest) := by
  intro left right related
  rw [bind_apply, bind_apply]
  obtain ⟨same, kept⟩ := first related
  generalize step left = out at same kept
  generalize otherStep right = otherOut at same kept
  obtain ⟨result, after⟩ := out
  obtain ⟨otherResult, otherAfter⟩ := otherOut
  obtain rfl : result = otherResult := same
  cases result with
  | error e => exact ⟨rfl, kept⟩
  | ok a => exact next a kept

/-- To take an error that is not fatal for no answer keeps runs alike. -/
theorem attempt {run : Run σ α} {otherRun : Run τ α} (first : Alike tie run otherRun) :
    Alike tie run.attempt otherRun.attempt := by
  intro left right related
  obtain ⟨same, kept⟩ := first related
  unfold Run.attempt
  generalize run left = out at same kept
  generalize otherRun right = otherOut at same kept
  obtain ⟨result, after⟩ := out
  obtain ⟨otherResult, otherAfter⟩ := otherOut
  obtain rfl : result = otherResult := same
  cases result with
  | error e => exact ⟨rfl, kept⟩
  | ok a => exact ⟨rfl, kept⟩

private theorem awaitFetch (tied : host.Tied ref other tie) (seconds : Nat) (path : String) :
    Alike tie (Run.await seconds (host.fetch ref path)) (Run.await seconds (other.fetch ref path)) := by
  intro left right related
  obtain ⟨same, kept⟩ := tied.fetch path related
  have waited := tied.wait ((host.fetch ref path left.host).1.within seconds).delay kept
  refine ⟨by simp only [Run.await, same], ?_⟩
  change tie _ ((other.fetched ref path right).wait ((other.fetch ref path right.host).1.within seconds).delay)
  rw [← same]
  exact waited

private theorem awaitSearch (tied : host.Tied ref other tie) (seconds : Nat) (query : Query) (limit : Nat) :
    Alike tie (Run.await seconds (host.search ref query limit))
      (Run.await seconds (other.search ref query limit)) := by
  intro left right related
  obtain ⟨same, kept⟩ := tied.search query limit related
  have waited := tied.wait ((host.search ref query limit left.host).1.within seconds).delay kept
  refine ⟨by simp only [Run.await, same], ?_⟩
  change tie _ ((other.searched ref query limit right).wait
    ((other.search ref query limit right.host).1.within seconds).delay)
  rw [← same]
  exact waited

end Alike

/-- Calls that are waited for as long give a run the same on both hosts, whatever time they take. -/
structure Host.AgreesWithin (ref : RepositoryRef) (seconds : Nat) (host : Host σ) (other : Host τ)
    (tie : World σ → World τ → Prop) : Prop where
  fetch : ∀ path, Alike tie (Run.await seconds (host.fetch ref path)) (Run.await seconds (other.fetch ref path))
  search : ∀ query limit, Alike tie (Run.await seconds (host.search ref query limit))
    (Run.await seconds (other.search ref query limit))

/-- Tied hosts agree on calls, however long these are waited for. -/
theorem Host.Tied.agreesWithin {ref : RepositoryRef} {host : Host σ} {other : Host τ}
    {tie : World σ → World τ → Prop} (tied : host.Tied ref other tie) (seconds : Nat) :
    host.AgreesWithin ref seconds other tie :=
  ⟨Alike.awaitFetch tied seconds, Alike.awaitSearch tied seconds⟩

end ReviewContext

import ReviewContext.Proofs.Discovery.Screening
import ReviewContext.Proofs.Host.Answers

/-! # What a screening accepts

A screening adds the files that its calls show, one for a call at most, and makes no call once it has as
many as it may. By a table of answers each hit can be judged by itself, so that the calls can be left out:
the files are those of a fold over the hits.
-/

namespace ReviewContext.Discovery

namespace Screen

/-- The file that a call shows to be related. -/
def shown? (screen : Screen) : Call → Option RelatedFile
  | .fetch path (.ok content) =>
    if screen.confirms path content then some ⟨path, screen.relationship, content, screen.target⟩ else none
  | _ => none

private theorem judge_content (screen : Screen) (accepted : List RelatedFile) (path content : String) :
    screen.judge accepted path (some content) =
      accepted ++ (screen.shown? (.fetch path (.ok content))).toList := by
  simp only [judge, shown?]
  split <;> simp

/-- What is accepted after a hit by a table of answers. -/
def accept (screen : Screen) (answers : Answers) (seconds : Nat) (accepted : List RelatedFile) (path : String) :
    List RelatedFile :=
  if screen.cap ≤ accepted.length || !screen.admits accepted path then accepted
  else screen.judge accepted path (answers.fetched seconds path).toOption

/-- Whether the text at a path shows the relationship, by a table of answers. -/
def shows (screen : Screen) (answers : Answers) (seconds : Nat) (path : String) : Bool :=
  (answers.fetched seconds path).toOption.any (screen.confirms path)

variable {screen : Screen} {answers : Answers} {seconds : Nat} {accepted : List RelatedFile} {path : String}

private theorem accept_of_full (full : screen.cap ≤ accepted.length) :
    screen.accept answers seconds accepted path = accepted := by
  simp [accept, full]

private theorem accept_of_skipped (skipped : screen.admits accepted path = false) :
    screen.accept answers seconds accepted path = accepted := by
  simp [accept, skipped]

private theorem accept_of_admitted (room : accepted.length < screen.cap)
    (admitted : screen.admits accepted path = true) :
    screen.accept answers seconds accepted path =
      screen.judge accepted path (answers.fetched seconds path).toOption := by
  simp [accept, admitted, Nat.not_le_of_lt room]

/-- A hit adds its own name if there is room for it, the screen lets it pass and its text shows the relationship. -/
theorem names_accept (screen : Screen) (answers : Answers) (seconds : Nat) (accepted : List RelatedFile)
    (path : String) :
    (screen.accept answers seconds accepted path).map (·.filename) =
      if accepted.length < screen.cap ∧ screen.admits accepted path ∧ screen.shows answers seconds path then
        accepted.map (·.filename) ++ [path]
      else accepted.map (·.filename) := by
  by_cases room : accepted.length < screen.cap
  · cases admits : screen.admits accepted path with
    | false => simp [accept_of_skipped admits]
    | true =>
      rw [accept_of_admitted room admits, shows]
      cases (answers.fetched seconds path).toOption with
      | none => simp [judge]
      | some content =>
        cases confirms : screen.confirms path content <;> simp [judge, room, confirms]
  · rw [accept_of_full (Nat.le_of_not_lt room), if_neg fun both => room both.1]

/-- If the names grow by one kind of step for the hits that count, they are a fold over these. -/
theorem names_foldl {counts : String → Bool} {push : List String → String → List String}
    (step : ∀ accepted path, (screen.accept answers seconds accepted path).map (·.filename) =
      if counts path then push (accepted.map (·.filename)) path else accepted.map (·.filename))
    (hits : List String) (accepted : List RelatedFile) :
    (hits.foldl (screen.accept answers seconds) accepted).map (·.filename) =
      (hits.filter counts).foldl push (accepted.map (·.filename)) := by
  induction hits generalizing accepted with
  | nil => rfl
  | cons path rest ih =>
    rw [List.foldl_cons, ih, step]
    cases known : counts path with
    | true => rw [List.filter_cons_of_pos known, List.foldl_cons, if_pos rfl]
    | false => rw [List.filter_cons_of_neg (Bool.eq_false_iff.mp known), if_neg Bool.false_ne_true]

private theorem foldl_accept_of_full (full : screen.cap ≤ accepted.length) (hits : List String) :
    hits.foldl (screen.accept answers seconds) accepted = accepted := by
  induction hits with
  | nil => rfl
  | cons path rest ih => rw [List.foldl_cons, accept_of_full full, ih]

end Screen

namespace Screening

variable {screen : Screen} {hits : List String} {accepted found : List RelatedFile} {calls : List Call}
  {result : Ending (List RelatedFile)}

/-- Nothing is fetched but hits that the screen has let pass. -/
theorem admitted_of_fetched (screening : Screening screen hits accepted calls result) {path : String}
    {ending : Ending String} (fetched : .fetch path ending ∈ calls) :
    path ∈ hits ∧ ∃ before, screen.admits before path = true := by
  induction screening with
  | exhausted => cases fetched
  | enough full => cases fetched
  | passed room skipped tail ih =>
    obtain ⟨hit, admitted⟩ := ih fetched
    exact ⟨List.mem_cons_of_mem _ hit, admitted⟩
  | refused room admitted fatal =>
    cases List.mem_singleton.mp fetched
    exact ⟨List.mem_cons_self, _, admitted⟩
  | unread room admitted mild tail ih =>
    rcases List.mem_cons.mp fetched with same | later
    · cases same
      exact ⟨List.mem_cons_self, _, admitted⟩
    · obtain ⟨hit, known⟩ := ih later
      exact ⟨List.mem_cons_of_mem _ hit, known⟩
  | read room admitted tail ih =>
    rcases List.mem_cons.mp fetched with same | later
    · cases same
      exact ⟨List.mem_cons_self, _, admitted⟩
    · obtain ⟨hit, known⟩ := ih later
      exact ⟨List.mem_cons_of_mem _ hit, known⟩

/-- Added is what the calls show, in their order. -/
theorem found_eq (screening : Screening screen hits accepted calls result) (completed : result = .ok found) :
    found = accepted ++ calls.filterMap screen.shown? := by
  induction screening with
  | exhausted => cases completed; simp
  | enough full => cases completed; simp
  | passed room skipped tail ih => exact ih completed
  | refused room admitted fatal => cases completed
  | unread room admitted mild tail ih => exact ih completed
  | @read path rest accepted content calls result room admitted tail ih =>
    rw [ih completed, Screen.judge_content, List.append_assoc, List.filterMap_cons]
    cases screen.shown? (.fetch path (.ok content)) <;> rfl

/-- As long as there are calls to come, there is room. -/
theorem room_before (screening : Screening screen hits accepted calls result) {early : List Call}
    (starts : early <+: calls) (shorter : early ≠ calls) :
    accepted.length + (early.filterMap screen.shown?).length < screen.cap := by
  induction screening generalizing early with
  | exhausted => exact absurd (List.prefix_nil.mp starts) shorter
  | enough full => exact absurd (List.prefix_nil.mp starts) shorter
  | passed room skipped tail ih => exact ih starts shorter
  | refused room admitted fatal =>
    cases early with
    | nil => exact room
    | cons call early =>
      obtain ⟨rfl, later⟩ := List.cons_prefix_cons.mp starts
      exact absurd (congrArg _ (List.prefix_nil.mp later)) shorter
  | unread room admitted mild tail ih =>
    cases early with
    | nil => exact room
    | cons call early =>
      obtain ⟨rfl, later⟩ := List.cons_prefix_cons.mp starts
      have goesOn := ih later fun same => shorter (congrArg _ same)
      exact goesOn
  | @read path rest accepted content calls result room admitted tail ih =>
    cases early with
    | nil => exact room
    | cons call early =>
      obtain ⟨rfl, later⟩ := List.cons_prefix_cons.mp starts
      have goesOn := ih later fun same => shorter (congrArg _ same)
      rw [Screen.judge_content, List.length_append] at goesOn
      rw [List.filterMap_cons]
      cases shows : screen.shown? (.fetch path (.ok content)) with
      | none => simpa [shows] using goesOn
      | some related =>
        simp only [shows, Option.toList_some, List.length_cons, List.length_nil] at goesOn ⊢
        omega

/-- By a table of answers the hits are judged one after the other. -/
theorem found_by_table (screening : Screening screen hits accepted calls result) (completed : result = .ok found)
    {answers : Answers} {seconds : Nat} (given : ∀ call ∈ calls, answers.Gives seconds call) :
    found = hits.foldl (screen.accept answers seconds) accepted := by
  induction screening with
  | exhausted => cases completed; rfl
  | enough full => cases completed; exact (Screen.foldl_accept_of_full full _).symm
  | passed room skipped tail ih =>
    rw [List.foldl_cons, Screen.accept_of_skipped skipped]
    exact ih completed given
  | refused room admitted fatal => cases completed
  | @unread path rest accepted e calls result room admitted mild tail ih =>
    obtain ⟨first, later⟩ := List.forall_mem_cons.mp given
    have failed : answers.fetched seconds path = .error e := Eq.symm first
    rw [List.foldl_cons, Screen.accept_of_admitted room admitted, failed]
    exact ih completed later
  | @read path rest accepted content calls result room admitted tail ih =>
    obtain ⟨first, later⟩ := List.forall_mem_cons.mp given
    have fetched : answers.fetched seconds path = .ok content := Eq.symm first
    rw [List.foldl_cons, Screen.accept_of_admitted room admitted, fetched]
    exact ih completed later

end Screening

end ReviewContext.Discovery

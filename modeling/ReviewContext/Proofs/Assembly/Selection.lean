import ReviewContext.Proofs.Assembly.Pool
import ReviewContext.Proofs.Discovery.Limits

/-! # What is drawn from the pool

Drawing goes through the offered entries once, counts what it has taken of each relationship and stops as
soon as the two counts add up to both limits. What it takes is nevertheless what each limit admits by itself:
the first dependents and the first tests, in the order of the offer. The sum of the limits may exceed a
machine word; it is cut off there, and no offer is so long that this would matter.
-/

namespace ReviewContext

def Bundle.names (bundle : Bundle) : List String :=
  bundle.relatedFiles.map (·.filename)

namespace Assembly

/-- Whether a file is one of the first with its relationship, as many as there is room for. -/
def amongFirst (room : Relationship → Nat) (files : List RelatedFile) (file : RelatedFile) : Bool :=
  ((files.filter (·.relationship = file.relationship)).take (room file.relationship)).contains file

/-- Of each relationship the first files, as many as there is room for, in their order. -/
def firsts (room : Relationship → Nat) (files : List RelatedFile) : List RelatedFile :=
  files.filter (amongFirst room files)

section Firsts

variable {room : Relationship → Nat} {files rest : List RelatedFile} {file : RelatedFile}

private theorem amongFirst_iff : amongFirst room files file = true ↔
    file ∈ (files.filter (·.relationship = file.relationship)).take (room file.relationship) := by
  rw [amongFirst, List.contains_iff_mem]

private theorem mem_firsts : file ∈ firsts room files ↔
    file ∈ (files.filter (·.relationship = file.relationship)).take (room file.relationship) := by
  rw [firsts, List.mem_filter, amongFirst_iff]
  constructor
  · exact And.right
  · exact fun taken => ⟨(List.mem_filter.mp (List.mem_of_mem_take taken)).1, taken⟩

/-- Where there is room for all, all are kept. -/
theorem firsts_eq_self (few : ∀ kind, (files.filter (·.relationship = kind)).length ≤ room kind) :
    firsts room files = files := by
  refine List.filter_eq_self.mpr fun file member => amongFirst_iff.mpr ?_
  rw [List.take_of_length_le (few _)]
  exact List.mem_filter.mpr ⟨member, decide_eq_true rfl⟩

private theorem firsts_eq_nil (full : ∀ kind, room kind = 0) : firsts room files = [] := by
  refine List.eq_nil_iff_forall_not_mem.mpr fun file member => ?_
  rw [mem_firsts, full, List.take_zero] at member
  cases member

private theorem firsts_cons_of_full (full : room file.relationship = 0) :
    firsts room (file :: rest) = firsts room rest := by
  have dropped : ¬ amongFirst room (file :: rest) file = true := by
    rw [amongFirst_iff, full, List.take_zero]
    exact List.not_mem_nil
  rw [firsts, List.filter_cons_of_neg dropped, firsts]
  refine List.filter_congr fun other member => ?_
  unfold amongFirst
  by_cases same : file.relationship = other.relationship
  · rw [← same, full, List.take_zero, List.take_zero]
  · rw [List.filter_cons_of_neg (by simpa using same)]

private theorem firsts_cons_of_room {left : Nat} (space : room file.relationship = left + 1) (fresh : file ∉ rest) :
    firsts room (file :: rest) = file :: firsts (Function.update room file.relationship left) rest := by
  have kept : amongFirst room (file :: rest) file = true := by
    rw [amongFirst_iff, space, List.filter_cons_of_pos (by simp), List.take_succ_cons]
    exact List.mem_cons_self
  rw [firsts, List.filter_cons_of_pos kept, firsts]
  congr 1
  refine List.filter_congr fun other member => ?_
  have different : (other == file) = false := beq_eq_false_iff_ne.mpr fun same => fresh (same ▸ member)
  unfold amongFirst
  by_cases same : file.relationship = other.relationship
  · rw [← same, Function.update_self, space, List.filter_cons_of_pos (by simp), List.take_succ_cons,
      List.contains_cons, different, Bool.false_or]
  · rw [Function.update_of_ne (Ne.symm same), List.filter_cons_of_neg (by simpa using same)]

/-- What is taken of one relationship does not depend on the other. -/
theorem filter_firsts (kind : Relationship) (distinct : files.Nodup) :
    (firsts room files).filter (·.relationship = kind) =
      (files.filter (·.relationship = kind)).take (room kind) := by
  induction files generalizing room with
  | nil => simp [firsts]
  | cons file rest ih =>
    obtain ⟨fresh, later⟩ := List.nodup_cons.mp distinct
    cases space : room file.relationship with
    | zero =>
      rw [firsts_cons_of_full space, ih later, List.filter_cons]
      split
      · next same =>
        obtain rfl := of_decide_eq_true same
        rw [space, List.take_zero, List.take_zero]
      · rfl
    | succ left =>
      rw [firsts_cons_of_room space fresh, List.filter_cons, List.filter_cons, ih later]
      split
      · next same =>
        obtain rfl := of_decide_eq_true same
        rw [Function.update_self, space, List.take_succ_cons]
      · next other =>
        rw [Function.update_of_ne (by simpa using Ne.symm (show file.relationship ≠ kind by simpa using other))]

/-- A file that is passed over finds no room for its relationship. -/
theorem full_of_passed (distinct : files.Nodup) (member : file ∈ files) (passed : file ∉ firsts room files) :
    ((firsts room files).filter (·.relationship = file.relationship)).length = room file.relationship := by
  rw [filter_firsts _ distinct, List.length_take]
  have kind : file ∈ files.filter (·.relationship = file.relationship) :=
    List.mem_filter.mpr ⟨member, decide_eq_true rfl⟩
  by_contra short
  refine passed (mem_firsts.mpr ?_)
  rw [List.take_of_length_le (by omega)]
  exact kind

end Firsts

/-- What comes later takes no room from what comes first. -/
theorem mem_firsts_append {room : Relationship → Nat} {files more : List RelatedFile} {file : RelatedFile}
    (apart : file ∉ more) : file ∈ firsts room (files ++ more) ↔ file ∈ firsts room files := by
  rw [mem_firsts, mem_firsts, List.filter_append, List.take_append, List.mem_append]
  refine or_iff_left fun taken => apart (List.mem_filter.mp (List.mem_of_mem_take taken)).1

/-- How much each cap still admits. -/
def spare (settings : Settings) (dependents tests : Nat) : Relationship → Nat
  | .dependent => settings.maxDependents - dependents
  | .test => settings.maxTests - tests

private theorem draw_eq_firsts (settings : Settings) (filename : String) (dependents tests : Nat)
    (offered : List RelatedFile) (distinct : offered.Nodup) (withinDependents : dependents ≤ settings.maxDependents)
    (withinTests : tests ≤ settings.maxTests)
    (countable : dependents + tests + offered.length ≤ Text.maxWord) :
    draw settings filename dependents tests offered =
      (firsts (spare settings dependents tests) (offered.filter (·.filename != filename))).map
        (·.excerpt settings) := by
  have unlisted {file : RelatedFile} {rest : List RelatedFile} (distinct : (file :: rest).Nodup) :
      file ∉ rest.filter (·.filename != filename) :=
    fun member => (List.nodup_cons.mp distinct).1 (List.mem_filter.mp member).1
  fun_induction draw settings filename dependents tests offered with
  | case1 => rfl
  | case2 dependents tests file rest stop =>
    -- A word's worth of files cannot have been taken, so both limits are reached.
    have reached : settings.maxDependents + settings.maxTests ≤ dependents + tests := by
      simp only [List.length_cons] at countable
      omega
    have full : ∀ kind, spare settings dependents tests kind = 0 := by
      rintro (_ | _)
      · simp only [spare]; omega
      · simp only [spare]; omega
    rw [firsts_eq_nil full, List.map_nil]
  | case3 dependents tests file rest room own ih =>
    rw [List.filter_cons_of_neg (by simpa using own)]
    exact ih distinct.of_cons withinDependents withinTests (by simp only [List.length_cons] at countable; omega)
  | case4 dependents tests file rest room other kind full ih =>
    have none : spare settings dependents tests file.relationship = 0 := by
      simp only [kind, spare]
      omega
    rw [List.filter_cons_of_pos (by simpa using other), firsts_cons_of_full none]
    exact ih distinct.of_cons withinDependents withinTests (by simp only [List.length_cons] at countable; omega)
  | case5 dependents tests file rest room other excerpt kind place ih =>
    have space : spare settings dependents tests file.relationship =
        settings.maxDependents - (dependents + 1) + 1 := by
      simp only [kind, spare]
      omega
    have next : Function.update (spare settings dependents tests) file.relationship
        (settings.maxDependents - (dependents + 1)) = spare settings (dependents + 1) tests := by
      rw [kind]
      funext other
      cases other <;> rfl
    rw [List.filter_cons_of_pos (by simpa using other), firsts_cons_of_room space (unlisted distinct), next,
      List.map_cons]
    refine congrArg _ (ih distinct.of_cons (by omega) withinTests ?_)
    simp only [List.length_cons] at countable
    omega
  | case6 dependents tests file rest room other kind full ih =>
    have none : spare settings dependents tests file.relationship = 0 := by
      simp only [kind, spare]
      omega
    rw [List.filter_cons_of_pos (by simpa using other), firsts_cons_of_full none]
    exact ih distinct.of_cons withinDependents withinTests (by simp only [List.length_cons] at countable; omega)
  | case7 dependents tests file rest room other excerpt kind place ih =>
    have space : spare settings dependents tests file.relationship =
        settings.maxTests - (tests + 1) + 1 := by
      simp only [kind, spare]
      omega
    have next : Function.update (spare settings dependents tests) file.relationship
        (settings.maxTests - (tests + 1)) = spare settings dependents (tests + 1) := by
      rw [kind]
      funext other
      cases other <;> rfl
    rw [List.filter_cons_of_pos (by simpa using other), firsts_cons_of_room space (unlisted distinct), next,
      List.map_cons]
    refine congrArg _ (ih distinct.of_cons withinDependents (by omega) ?_)
    simp only [List.length_cons] at countable
    omega

/-- The entries that a file may be given, in the order in which they are offered. -/
def eligible (filename : String) (own pool : List RelatedFile) : List RelatedFile :=
  (ranked own pool).filter (·.filename != filename)

/-- The two counters of a bundle come to this: of each relationship the first entries that may be given. -/
theorem bundle_eq_firsts (settings : Settings) (filename : String) (own : List RelatedFile)
    {pool : List RelatedFile} (named : Named pool) (countable : pool.length ≤ Text.maxWord) :
    bundle settings filename own pool =
      ⟨(firsts settings.cap (eligible filename own pool)).map (·.excerpt settings)⟩ := by
  have all : spare settings 0 0 = settings.cap := by
    funext kind
    cases kind <;> rfl
  have short := ranked_length_le own named
  rw [bundle, offered_eq_ranked, draw_eq_firsts settings filename 0 0 _ (ranked_named named).of_map
    (Nat.zero_le _) (Nat.zero_le _) (by omega), all, eligible]

/-- What a bundle is, by the name of its file, what was found for it and the pool of the change. -/
structure DrawnFrom (settings : Settings) (filename : String) (own pool : List RelatedFile)
    (bundle : Bundle) : Prop where
  entries : bundle.relatedFiles =
    (firsts settings.cap (eligible filename own pool)).map (·.excerpt settings)
  distinct : bundle.names.Nodup
  capped : ∀ kind, (bundle.ofRelationship kind).length ≤ settings.cap kind
  full : ∀ related ∈ pool, related.filename ≠ filename → related.filename ∉ bundle.names →
    (bundle.ofRelationship related.relationship).length = settings.cap related.relationship

theorem excerpts_ofRelationship (settings : Settings) (kind : Relationship) (files : List RelatedFile) :
    (Bundle.mk (files.map (·.excerpt settings))).ofRelationship kind =
      (files.filter (·.relationship = kind)).map (·.excerpt settings) := by
  rw [Bundle.ofRelationship, List.filter_map]
  rfl

theorem excerpts_names (settings : Settings) (files : List RelatedFile) :
    (Bundle.mk (files.map (·.excerpt settings))).names = files.map (·.filename) := by
  rw [Bundle.names, List.map_map]
  rfl

/-- A bundle is drawn from its pool as said, as long as the pool can be counted. -/
theorem bundle_drawnFrom (settings : Settings) (filename : String) (own : List RelatedFile)
    {pool : List RelatedFile} (named : Named pool) (countable : pool.length ≤ Text.maxWord) :
    DrawnFrom settings filename own pool (bundle settings filename own pool) := by
  have offered : Named (eligible filename own pool) :=
    (List.filter_sublist.map _).nodup (ranked_named named)
  have distinct := offered.of_map
  rw [bundle_eq_firsts settings filename own named countable]
  refine ⟨rfl, ?_, fun kind => ?_, fun related member other passed => ?_⟩
  · rw [excerpts_names]
    exact (List.filter_sublist.map _).nodup offered
  · rw [excerpts_ofRelationship, List.length_map, filter_firsts kind distinct, List.length_take]
    exact Nat.min_le_left _ _
  · rw [excerpts_names] at passed
    rw [excerpts_ofRelationship, List.length_map]
    refine full_of_passed distinct (List.mem_filter.mpr ⟨(mem_ranked named).mpr member, by simpa using other⟩) ?_
    exact fun taken => passed (List.mem_map_of_mem taken)

end Assembly

end ReviewContext

import ReviewContext.Config
import ReviewContext.Proofs.Names.Spellings

/-! # Layers of a configuration

A setting is given by a variable of the environment, or in the file of the repository, or in the file for
all repositories, or else it is what is built in. Each step of loading is told by what it does to the value
of any one setting, and loading puts the steps together. A file of a repository cannot set anything back to
what is built in: that value is passed over as if it had not been written.
-/

namespace ReviewContext

/-! ## Single settings -/

/-- What can be set. -/
inductive Setting where
  | strategy
  | fallback
  | maxFileSize
  | maxCharsPerFile
  | maxDependents
  | maxTests
  | enableRelationships
  | requestTimeoutSecs
  | apiUrl
  | token

namespace Setting

abbrev Value : Setting → Type
  | strategy | fallback => Strategy
  | maxFileSize | maxCharsPerFile | maxDependents | maxTests | requestTimeoutSecs => Nat
  | enableRelationships => Bool
  | apiUrl | token => String

instance : (setting : Setting) → DecidableEq setting.Value
  | strategy | fallback => inferInstanceAs (DecidableEq Strategy)
  | maxFileSize | maxCharsPerFile | maxDependents | maxTests | requestTimeoutSecs =>
    inferInstanceAs (DecidableEq Nat)
  | enableRelationships => inferInstanceAs (DecidableEq Bool)
  | apiUrl | token => inferInstanceAs (DecidableEq String)

/-- The value in a configuration. Only a token may be missing. -/
def value? (config : Config) : (setting : Setting) → Option setting.Value
  | strategy => some config.context.strategy
  | fallback => some config.context.fallback
  | maxFileSize => some config.context.maxFileSize
  | maxCharsPerFile => some config.context.maxCharsPerFile
  | maxDependents => some config.context.maxDependents
  | maxTests => some config.context.maxTests
  | enableRelationships => some config.context.enableRelationships
  | requestTimeoutSecs => some config.context.requestTimeoutSecs
  | apiUrl => some config.github.apiUrl
  | token => config.github.token?

/-- What a setting is where nothing gives it. -/
def builtIn? (setting : Setting) : Option setting.Value :=
  setting.value? {}

/-! ## What a variable gives -/

/-- The variables that a setting is read from, the first that is set. -/
def variableNames : Setting → List String
  | strategy => ["REVIEWCTX_STRATEGY"]
  | fallback => ["REVIEWCTX_FALLBACK_STRATEGY"]
  | maxFileSize => ["REVIEWCTX_MAX_FILE_SIZE"]
  | maxCharsPerFile => ["REVIEWCTX_MAX_CHARS_PER_FILE"]
  | maxDependents => ["REVIEWCTX_MAX_DEPENDENTS"]
  | maxTests => ["REVIEWCTX_MAX_TESTS"]
  | enableRelationships => ["REVIEWCTX_ENABLE_RELATIONSHIPS"]
  | requestTimeoutSecs => ["REVIEWCTX_REQUEST_TIMEOUT"]
  | apiUrl => ["REVIEWCTX_GITHUB_API_URL"]
  | token => ["REVIEWCTX_GITHUB_TOKEN", "GITHUB_TOKEN"]

/-- A switch by its word. -/
def switch? (text : String) : Option Bool :=
  let word := String.ofList (Text.lower text.toList)
  if ["true", "1", "yes", "on"].contains word then some true
  else if ["false", "0", "no", "off"].contains word then some false
  else none

/-- A strategy by its word, in any case and with hyphens for underscores. -/
def strategy? (text : String) : Option Strategy :=
  Strategy.spellings.lookup (String.ofList ((Text.lower text.toList).map fun c => if c = '-' then '_' else c))

/-- Reads the text of a variable. -/
def parse? : (setting : Setting) → String → Option setting.Value
  | strategy | fallback => strategy?
  | maxFileSize | maxCharsPerFile | maxDependents | maxTests | requestTimeoutSecs =>
    fun text => Text.readNat? Text.maxWord text.toList
  | enableRelationships => switch?
  | apiUrl | token => some

/-- The value that the environment gives, if it is valid. -/
def given? (setting : Setting) (environment : Environment) : Option setting.Value :=
  environment.firstOf? setting.variableNames >>= setting.parse?

private theorem firstOf?_singleton (environment : Environment) (name : String) :
    environment.firstOf? [name] = environment.value? name := by
  simp only [Environment.firstOf?, List.findSome?]
  cases environment.value? name <;> rfl

private theorem strategy?_eq_read? : strategy? = Strategy.read? :=
  funext fun text => (Strategy.read?_eq_lookup text).symm

/-- A variable goes before all else. -/
theorem value?_withEnvironment (environment : Environment) (config : Config) (setting : Setting) :
    setting.value? (config.withEnvironment environment) =
      (setting.given? environment).or (setting.value? config) := by
  cases setting with
  | token =>
    simp only [given?, parse?, Option.bind_eq_bind, Option.bind_fun_some]
    rfl
  | apiUrl =>
    simp only [given?, variableNames, firstOf?_singleton, parse?, value?, Option.bind_eq_bind, Option.bind_fun_some,
      Option.or_some]
    rfl
  | strategy | fallback =>
    simp only [given?, variableNames, firstOf?_singleton, parse?, strategy?_eq_read?, value?, Option.or_some]
    rfl
  | _ =>
    simp only [given?, variableNames, firstOf?_singleton, value?, Option.or_some]
    rfl

end Setting

/-! ## What a file gives -/

/-- The field of a record with one of the names of its fields. -/
def Toml.field? (names : List String) (name : String) (record : Toml) : Option Toml := do
  let fields ← record.fields? names
  ((names.zip fields).lookup name).join

namespace Setting

/-- The section of a file that a setting belongs to. -/
def sectionName : Setting → String
  | apiUrl | token => "github"
  | _ => "context"

private theorem sectionName_cases (setting : Setting) :
    setting.sectionName = "context" ∨ setting.sectionName = "github" := by
  cases setting <;> simp [sectionName]

private theorem value?_of_settings {setting : Setting} (own : setting.sectionName = "context") (settings : Settings)
    (access other : GitHubAccess) : setting.value? ⟨settings, access⟩ = setting.value? ⟨settings, other⟩ := by
  cases setting with
  | apiUrl => simp [sectionName] at own
  | token => simp [sectionName] at own
  | _ => rfl

private theorem value?_of_access {setting : Setting} (own : setting.sectionName = "github") (settings other : Settings)
    (access : GitHubAccess) : setting.value? ⟨settings, access⟩ = setting.value? ⟨other, access⟩ := by
  cases setting with
  | apiUrl => rfl
  | token => rfl
  | _ => simp [sectionName] at own

/-- The names in the section of a setting. -/
def names : Setting → List String
  | apiUrl | token => ["api_url", "token"]
  | _ => Settings.fieldNames

/-- The name of a setting in a file. -/
def name : Setting → String
  | strategy => "strategy"
  | fallback => "fallback_strategy"
  | maxFileSize => "max_file_size"
  | maxCharsPerFile => "max_chars_per_file"
  | maxDependents => "max_dependents"
  | maxTests => "max_tests"
  | enableRelationships => "enable_relationships"
  | requestTimeoutSecs => "request_timeout_secs"
  | apiUrl => "api_url"
  | token => "token"

def ofToml? : (setting : Setting) → Toml → Option setting.Value
  | strategy | fallback => fun name => name.caseName? >>= Strategy.ofName?
  | maxFileSize | maxCharsPerFile | maxDependents | maxTests | requestTimeoutSecs => Toml.count?
  | enableRelationships => Toml.bool?
  | apiUrl | token => Toml.string?

/-- The value that is written in a document, if there is one. -/
def written? (setting : Setting) (document : Toml) : Option setting.Value := do
  let part ← document.field? ["context", "github"] setting.sectionName
  setting.ofToml? (← part.field? setting.names setting.name)

end Setting

private theorem Toml.field?_of_fields {names : List String} {name : String} {record : Toml}
    {fields : List (Option Toml)}
    {field : Option Toml} (found : record.fields? names = some fields)
    (there : ((names.zip fields).lookup name).join = field) : record.field? names name = field := by
  rw [field?, found]
  exact there

/-- What is read of a field, which has a default if it is missing. -/
theorem Toml.read_field {names : List String} {name : String} {record : Toml} {fields : List (Option Toml)}
    {field : Option Toml} {α : Type} {read : Toml → Option α} {default value : α}
    (found : record.fields? names = some fields) (there : ((names.zip fields).lookup name).join = field)
    (went : Field.withDefault? read default field = some value) :
    some value = (record.field? names name >>= read).or (some default) := by
  rw [Toml.field?_of_fields found there]
  cases field with
  | none => exact went.symm
  | some written =>
    change read written = some value at went
    change some value = (read written).or (some default)
    rw [went]
    rfl

/-- What is read from the section of the settings. -/
theorem value?_of_context {part : Toml} {settings : Settings} (went : Settings.ofToml? part = some settings)
    (github : GitHubAccess) {setting : Setting} (own : setting.sectionName = "context") :
    setting.value? ⟨settings, github⟩ =
      (part.field? setting.names setting.name >>= setting.ofToml?).or setting.builtIn? := by
  simp only [Settings.ofToml?, Option.bind_eq_bind, Option.bind_eq_some_iff] at went
  obtain ⟨fields, found, went⟩ := went
  unfold Settings.ofFields? at went
  dsimp only at went
  split at went
  · next strategy fallback fileSize charsPerFile dependents tests relationships timeout =>
    simp only [Option.bind_eq_bind, Option.bind_eq_some_iff, Option.pure_def, Option.some.injEq] at went
    obtain ⟨_, first, _, second, _, third, _, fourth, _, fifth, _, sixth, _, seventh, _, eighth, rfl⟩ := went
    cases setting with
    | strategy => exact Toml.read_field found rfl first
    | fallback => exact Toml.read_field found rfl second
    | maxFileSize => exact Toml.read_field found rfl third
    | maxCharsPerFile => exact Toml.read_field found rfl fourth
    | maxDependents => exact Toml.read_field found rfl fifth
    | maxTests => exact Toml.read_field found rfl sixth
    | enableRelationships => exact Toml.read_field found rfl seventh
    | requestTimeoutSecs => exact Toml.read_field found rfl eighth
    | apiUrl => simp [Setting.sectionName] at own
    | token => simp [Setting.sectionName] at own
  · cases went

/-- What is read from the section of the access, in which a token may be missing. -/
theorem value?_of_github {part : Toml} {github : GitHubAccess} (went : GitHubAccess.ofToml? part = some github)
    (context : Settings) {setting : Setting} (own : setting.sectionName = "github") :
    setting.value? ⟨context, github⟩ =
      (part.field? setting.names setting.name >>= setting.ofToml?).or setting.builtIn? := by
  simp only [GitHubAccess.ofToml?, Option.bind_eq_bind, Option.bind_eq_some_iff] at went
  obtain ⟨fields, found, went⟩ := went
  split at went
  · next apiUrl token =>
    simp only [Option.bind_eq_some_iff, Option.pure_def, Option.some.injEq] at went
    obtain ⟨_, first, written, second, rfl⟩ := went
    cases setting with
    | apiUrl => exact Toml.read_field found rfl first
    | token =>
      change written = (part.field? ["api_url", "token"] "token" >>= Toml.string?).or none
      rw [Option.or_none, Toml.field?_of_fields found (show _ = token from rfl)]
      cases token with
      | none => exact (Option.some.inj second).symm
      | some value =>
        obtain ⟨text, read, rfl⟩ := Option.map_eq_some_iff.mp second
        exact read.symm
    | _ => simp [Setting.sectionName] at own
  · cases went

/-- A document sets what is written in it. -/
theorem value?_of_document {document : Toml} {config : Config} (went : Config.ofToml? document = some config)
    (setting : Setting) :
    setting.value? config = (setting.written? document).or setting.builtIn? := by
  simp only [Config.ofToml?, Option.bind_eq_bind, Option.bind_eq_some_iff] at went
  obtain ⟨fields, found, went⟩ := went
  split at went
  · next context github =>
    simp only [Option.bind_eq_some_iff, Option.pure_def, Option.some.injEq] at went
    obtain ⟨settings, first, access, second, rfl⟩ := went
    have reads {name : String} {part? : Option Toml} (own : setting.sectionName = name)
        (there : ((["context", "github"].zip [context, github]).lookup name).join = part?) :
        setting.written? document = part? >>= fun part => part.field? setting.names setting.name >>= setting.ofToml? := by
      rw [Setting.written?, own, Toml.field?_of_fields found there]
    obtain own | own := setting.sectionName_cases
    · rw [reads own rfl]
      cases context with
      | none =>
        cases first
        exact Setting.value?_of_settings own {} access {}
      | some part => exact value?_of_context first access own
    · rw [reads own rfl]
      cases github with
      | none =>
        cases second
        exact Setting.value?_of_access own settings {} {}
      | some part => exact value?_of_github second settings own
  · cases went

/-! ## One layer above another -/

namespace Setting

/-- The value that a document sets, unless it is what is built in. -/
def changed? (setting : Setting) (document : Toml) : Option setting.Value :=
  (setting.written? document).filter (some · ≠ setting.builtIn?)

section Unset

variable {α : Type} [DecidableEq α]

private theorem pick_eq (unset above base : α) :
    some (if above = unset then base else above) =
      ((some above).filter (some · ≠ some unset)).or (some base) := by
  by_cases same : above = unset
  · simp [same, Option.filter]
  · simp [same, Option.filter]

private theorem filter_or_unset (written unset : Option α) :
    (written.or unset).filter (some · ≠ unset) = written.filter (some · ≠ unset) := by
  cases written with
  | none => cases unset <;> simp [Option.filter]
  | some value => rfl

private theorem or_unset_of_filter (written unset : Option α) :
    (written.filter (some · ≠ unset)).or unset = written.or unset := by
  cases written with
  | none => rfl
  | some value =>
    by_cases same : some value = unset
    · simp [Option.filter, same]
    · simp [Option.filter, same]

end Unset

/-- What the layer above leaves at its default stays as it is. -/
theorem value?_overlaid (base above : Config) (setting : Setting) :
    setting.value? (base.overlaid above) =
      ((setting.value? above).filter (some · ≠ setting.builtIn?)).or (setting.value? base) := by
  cases setting with
  | token =>
    change above.github.token?.or base.github.token? =
      (above.github.token?.filter (some · ≠ none)).or base.github.token?
    cases above.github.token? with
    | none => rfl
    | some token => rfl
  | _ => exact pick_eq _ _ _

private theorem value?_overlaid_of_document {document : Toml} {above : Config}
    (went : Config.ofToml? document = some above)
    (base : Config) (setting : Setting) :
    setting.value? (base.overlaid above) = (setting.changed? document).or (setting.value? base) := by
  rw [value?_overlaid, value?_of_document went, filter_or_unset]
  rfl

end Setting

/-! ## Loading -/

namespace Config

/-- The document in the file of a layer, if there is one. -/
def layer? (files : Files) (here : Place) (path? : Option String) : Option Toml := do
  let path ← path?
  if files.isThere here path then (files.readText here path).toOption >>= Toml.parse? else none

/-- The file of a layer is not there, or it can be read as a configuration. -/
def Readable (files : Files) (here : Place) (path? : Option String) : Prop :=
  ∀ path ∈ path?, files.isThere here path = true → ((files.readText here path).toOption >>= parse?).isSome = true

instance (files : Files) (here : Place) (path? : Option String) : Decidable (Readable files here path?) :=
  inferInstanceAs (Decidable (∀ path ∈ path?, files.isThere here path = true →
    ((files.readText here path).toOption >>= parse?).isSome = true))

variable {files : Files} {here : Place}

private theorem ok_of_toOption {ε α : Type} {ending : Except ε α} {a : α} (got : ending.toOption = some a) :
    ending = .ok a := by
  cases ending with
  | error e => cases got
  | ok known => exact congrArg Except.ok (Option.some.inj got)

private theorem withFile_of_readable {path : String} (readable : Readable files here (some path)) (base : Config) :
    ∃ config, withFile files here path base = .ok config ∧ ∀ setting : Setting,
      setting.value? config = (layer? files here (some path) >>= setting.changed?).or (setting.value? base) := by
  unfold withFile layer?
  by_cases there : files.isThere here path = true
  · obtain ⟨above, valid⟩ := Option.isSome_iff_exists.mp (readable path rfl there)
    obtain ⟨text, read, parsed⟩ := Option.bind_eq_some_iff.mp valid
    obtain ⟨document, written, took⟩ := Option.bind_eq_some_iff.mp parsed
    refine ⟨base.overlaid above, ?_, fun setting => ?_⟩
    · simp only [there, if_true, ok_of_toOption read, parsed]
    · rw [Setting.value?_overlaid_of_document took]
      simp [there, read, written]
  · refine ⟨base, ?_, fun setting => ?_⟩
    · rw [if_neg there]
    · simp [there]

/-- The configuration with the layer of a file, if there is a path for one. -/
def withLayer (files : Files) (here : Place) (path? : Option String) (base : Config) : Except ConfigError Config :=
  match path? with
  | some path => withFile files here path base
  | none => .ok base

private theorem load_eq (files : Files) (here : Place) (directory? root? : Option String) (environment : Environment) :
    load files here directory? root? environment = do
      let base ← withLayer files here (directory?.map globalPath) {}
      let base ← withLayer files here (root?.map localPath) base
      return base.withEnvironment environment :=
  rfl

private theorem withLayer_of_readable {path? : Option String} (readable : Readable files here path?) (base : Config) :
    ∃ config, withLayer files here path? base = .ok config ∧ ∀ setting : Setting,
      setting.value? config = (layer? files here path? >>= setting.changed?).or (setting.value? base) := by
  cases path? with
  | none => exact ⟨base, rfl, fun _ => rfl⟩
  | some path => exact withFile_of_readable readable base

/-- A value of the file of the repository stands if it is not the built-in one; the other layers give what
they set. -/
theorem load_layers (files : Files) (here : Place) (directory? root? : Option String) (environment : Environment)
    (below : Readable files here (directory?.map globalPath)) (above : Readable files here (root?.map localPath)) :
    ∃ config, load files here directory? root? environment = .ok config ∧ ∀ setting : Setting,
      setting.value? config =
        (setting.given? environment).or
          ((layer? files here (root?.map localPath) >>= setting.changed?).or
            ((layer? files here (directory?.map globalPath) >>= setting.written?).or setting.builtIn?)) := by
  obtain ⟨base, first, lower⟩ := withLayer_of_readable below {}
  obtain ⟨config, second, upper⟩ := withLayer_of_readable above base
  refine ⟨config.withEnvironment environment, ?_, fun setting => ?_⟩
  · rw [load_eq, first]
    change (withLayer files here (root?.map localPath) base >>= _) = _
    rw [second]
    rfl
  · rw [setting.value?_withEnvironment, upper, lower]
    congr 2
    cases layer? files here (directory?.map globalPath) with
    | none => rfl
    | some document => exact Setting.or_unset_of_filter _ _

/-- A word that is no strategy leaves that to the file for all repositories, and one that is names the fallback. -/
theorem load_layers_of_four_layers :
    let user := "[context]\nstrategy = \"diff_only\"\nmax_tests = 7\nmax_dependents = 2\n"
    let own := "[context]\nmax_tests = 3\nmax_dependents = 9\n"
    let files : Files := [(["home", "reviewctx", "config.toml"], .file (Utf8.encode user.toList)),
      (["till", ".reviewctx.toml"], .file (Utf8.encode own.toList))]
    let environment : Environment := [("REVIEWCTX_MAX_FILE_SIZE", " 20 "), ("REVIEWCTX_STRATEGY", "all"),
      ("REVIEWCTX_FALLBACK_STRATEGY", "Diff-Only"), ("GITHUB_TOKEN", "common")]
    let below := layer? files [] (some (globalPath "/home"))
    let above := layer? files [] (some (localPath "/till"))
    let config : Config :=
      { context :=
          { strategy := .diffOnly, fallback := .diffOnly, maxTests := 7, maxDependents := 9, maxFileSize := 20 }
        github := { token? := some "common" } }
    Readable files [] (some (globalPath "/home")) ∧ Readable files [] (some (localPath "/till")) ∧
      load files [] (some "/home") (some "/till") environment = .ok config ∧
      ∀ setting : Setting, setting.value? config = (setting.given? environment).or
        ((above >>= setting.changed?).or ((below >>= setting.written?).or setting.builtIn?)) := by
  intro user own files environment below above config
  have belowReads : Readable files [] (some (globalPath "/home")) := by decide +kernel
  have aboveReads : Readable files [] (some (localPath "/till")) := by decide +kernel
  obtain ⟨known, loaded, layers⟩ :=
    load_layers files [] (some "/home") (some "/till") environment belowReads aboveReads
  have made : (load files [] (some "/home") (some "/till") environment).toOption = some config := by
    decide +kernel
  rw [loaded] at made
  obtain rfl : known = config := Option.some.inj made
  exact ⟨belowReads, aboveReads, loaded, layers⟩

/-- A value that is written in the file of the repository is passed over if it is what is built in, and the
file for all repositories is followed. -/
theorem written_default_is_passed_over :
    let files : Files :=
      [(["home", "reviewctx", "config.toml"], .file (Utf8.encode "[context]\nmax_tests = 7\n".toList)),
        (["till", ".reviewctx.toml"], .file (Utf8.encode "[context]\nmax_tests = 3\n".toList))]
    let below := layer? files [] (some (globalPath "/home"))
    let above := layer? files [] (some (localPath "/till"))
    let config : Config := { context := { maxTests := 7 } }
    Readable files [] (some (globalPath "/home")) ∧ Readable files [] (some (localPath "/till")) ∧
      above >>= Setting.maxTests.written? = some 3 ∧
      (load files [] (some "/home") (some "/till") []).toOption = some config ∧
      Setting.maxTests.value? config ≠ (Setting.maxTests.given? []).or
        ((above >>= Setting.maxTests.written?).or
          ((below >>= Setting.maxTests.written?).or Setting.maxTests.builtIn?)) := by
  decide +kernel

end Config

end ReviewContext
